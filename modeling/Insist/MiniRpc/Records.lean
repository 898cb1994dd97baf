/-
**The records of an input.**

`Varint`, `Content` and `Record` are what `read_varint`, `skip_field` and one turn of `decode`'s loop take off
the front of the unread bytes; a value of these types carries the proof that it can stand in an input. No
record continues another (`recordCode`), so the records of an input are the positions `decode` stops at:

* `readVarint_eq_some_iff`, `skipField_eq_some_iff` — what the readers find, and where they leave off;
* `decodeField_eq_some_iff` — one iteration reads one accepted record and sets what it says;
* `decode_eq_some_iff` — **`decode` accepts exactly the sequences of accepted records, and folds them**.
-/
import Insist.Lib.PrefixCode
import Insist.MiniRpc.RoundTrip
import Mathlib.Data.List.Induction

namespace Insist.MiniRpc.ProtobufWireCodec

open Insist.Lib

/-! ### What stands in an input -/

/-- A varint as it stands in an input: a group of at most ten bytes that ends. -/
structure Varint where
  /-- Its bytes. -/
  group : List UInt8
  closed : Leb128.Closed group
  short : group.length ≤ 10

namespace Varint

/-- The value `read_varint` answers. -/
def value (varint : Varint) : UInt64 := UInt64.ofNat (Leb128.value varint.group)

theorem ext_group {first second : Varint} (same : first.group = second.group) : first = second := by
  cases first
  cases second
  cases same
  rfl

theorem aligned {first second : Varint} {rest rest' : List UInt8}
    (same : first.group ++ rest = second.group ++ rest') : first = second :=
  ext_group (Leb128.closed_aligned first.closed second.closed same)

theorem length_pos (varint : Varint) : 0 < varint.group.length :=
  Leb128.length_pos_of_closed varint.closed

/-- The canonical form of a value. -/
def ofValue (value : UInt64) : Varint :=
  ⟨Leb128.write value.toNat, Leb128.write_closed _, length_write_le value⟩

@[simp] theorem value_ofValue (value : UInt64) : (ofValue value).value = value := by
  show UInt64.ofNat (Leb128.value (Leb128.write value.toNat)) = value
  rw [Leb128.value_write, UInt64.ofNat_toNat]

/-- The value is what the group denotes, modulo `2 ^ 64`. -/
theorem toNat_value_le (varint : Varint) : varint.value.toNat ≤ Leb128.value varint.group := by
  rw [value, UInt64.toNat_ofNat']
  exact Nat.mod_le _ _

end Varint

/-- What follows a tag, by wire type. -/
inductive Content
  | varint (value : Varint)
  | fixed64 (data : List UInt8) (size : data.length = 8)
  | lengthDelimited (size : Varint) (data : ByteString) (agrees : size.value = data.size)
  | fixed32 (data : List UInt8) (size : data.length = 4)

namespace Content

/-- The wire type that announces the content. -/
def wireType : Content → UInt32
  | .varint _ => kWireVarint
  | .fixed64 _ _ => kWireFixed64
  | .lengthDelimited _ _ _ => kWireLengthDelimited
  | .fixed32 _ _ => kWireFixed32

/-- The bytes of the content. -/
def bytes : Content → List UInt8
  | .varint value => value.group
  | .fixed64 data _ => data
  | .lengthDelimited size data _ => size.group ++ data.data
  | .fixed32 data _ => data

/-- No content continues another of its wire type. -/
theorem aligned {first second : Content} {rest rest' : List UInt8}
    (wire : first.wireType = second.wireType)
    (same : first.bytes ++ rest = second.bytes ++ rest') : first = second := by
  cases first <;> cases second <;>
    first | exact absurd wire (by simp only [wireType]; decide) | skip
  case varint.varint => rw [Varint.aligned same]
  case fixed64.fixed64 data size data' size' =>
    obtain rfl := List.append_inj_left same (size.trans size'.symm)
    rfl
  case lengthDelimited.lengthDelimited size data agrees size' data' agrees' =>
    rw [bytes, bytes, List.append_assoc, List.append_assoc] at same
    obtain rfl := Varint.aligned same
    have lengths : data.data.length = data'.data.length := by
      rw [← data.toNat_size, ← data'.toNat_size, ← agrees, ← agrees']
    obtain rfl := ByteString.ext_data (List.append_inj_left (List.append_cancel_left same) lengths)
    rfl
  case fixed32.fixed32 data size data' size' =>
    obtain rfl := List.append_inj_left same (size.trans size'.symm)
    rfl

end Content

/-- A tag and the content its wire type announces. -/
structure Record where
  tag : Varint
  content : Content
  announces : (tag.value &&& 0x07).toUInt32 = content.wireType

namespace Record

/-- The bytes of the record. -/
def bytes (record : Record) : List UInt8 := record.tag.group ++ record.content.bytes

/-- The field number that the tag denotes. -/
def number (record : Record) : ℕ := (record.tag.value >>> 3).toNat

/-- `field_number` in `decode`: the number of the tag, narrowed to 32 bits. -/
def fieldNumber (record : Record) : UInt32 := (record.tag.value >>> 3).toUInt32

theorem bytes_ne_nil (record : Record) : record.bytes ≠ [] := by
  have := record.tag.length_pos
  apply List.ne_nil_of_length_pos
  rw [bytes, List.length_append]
  omega

theorem aligned {first second : Record} {rest rest' : List UInt8}
    (same : first.bytes ++ rest = second.bytes ++ rest') : first = second := by
  obtain ⟨tag, content, announces⟩ := first
  obtain ⟨tag', content', announces'⟩ := second
  rw [bytes, bytes, List.append_assoc, List.append_assoc] at same
  obtain rfl : tag = tag' := Varint.aligned same
  obtain rfl := Content.aligned (announces.symm.trans announces') (List.append_cancel_left same)
  rfl

end Record

/-- **No record continues another.** -/
def recordCode : PrefixCode Record UInt8 where
  encode := Record.bytes
  encode_ne_nil := Record.bytes_ne_nil
  aligned := Record.aligned

/-! ### What a record does to the message -/

/-- The fields of `RpcMessage`. -/
inductive Field
  | id
  | kind
  | service
  | method
  | payload
  | status
  | error
deriving DecidableEq, Repr

namespace Field

/-- The number of the field on the wire. -/
def number : Field → UInt32
  | id => 1
  | kind => 2
  | service => 3
  | method => 4
  | payload => 5
  | status => 6
  | error => 7

/-- The field a number stands for. -/
def ofNumber (number : UInt32) : Option Field :=
  if number = 1 then some id
  else if number = 2 then some kind
  else if number = 3 then some service
  else if number = 4 then some method
  else if number = 5 then some payload
  else if number = 7 then some error
  else if number = 6 then some status
  else none

theorem ofNumber_number (field : Field) : ofNumber field.number = some field := by
  cases field <;> rfl

theorem number_of_ofNumber {number : UInt32} {field : Field} (found : ofNumber number = some field) :
    number = field.number := by
  unfold ofNumber at found
  split_ifs at found <;> cases found <;> assumption

theorem ofNumber_eq_some_iff {number : UInt32} {field : Field} :
    ofNumber number = some field ↔ number = field.number := by
  refine ⟨number_of_ofNumber, ?_⟩
  rintro rfl
  exact ofNumber_number field

end Field

/-- Whether the `switch` takes a content for a field: the wire type is the field's own, and a status is at
most `std::numeric_limits<std::int32_t>::max()`. -/
def Takes : Option Field → Content → Prop
  | some .id, .varint _ | some .kind, .varint _ => True
  | some .status, .varint value => value.value ≤ 0x7fffffff
  | some .service, .lengthDelimited _ _ _ | some .method, .lengthDelimited _ _ _ => True
  | some .payload, .lengthDelimited _ _ _ | some .error, .lengthDelimited _ _ _ => True
  | some _, _ => False
  | none, _ => True

/-- What the `switch` does with a content that it takes. -/
def assign : Option Field → Content → RpcMessage → RpcMessage
  | some .id, .varint value, message => { message with id := value.value }
  | some .kind, .varint value, message => { message with kind := ⟨value.value.toUInt32⟩ }
  | some .service, .lengthDelimited _ data _, message => { message with service := data }
  | some .method, .lengthDelimited _ data _, message => { message with method := data }
  | some .payload, .lengthDelimited _ data _, message => { message with payload := data }
  | some .status, .varint value, message =>
      { message with status := value.value.toUInt32.toInt32 }
  | some .error, .lengthDelimited _ data _, message => { message with error := data }
  | _, _, message => message

namespace Record

/-- The field `decode` assigns the record to. -/
def field (record : Record) : Option Field := Field.ofNumber record.fieldNumber

/-- Whether `decode` goes on after the record. -/
def Accepted (record : Record) : Prop := Takes record.field record.content

/-- The message after the record. -/
def set (record : Record) (message : RpcMessage) : RpcMessage :=
  assign record.field record.content message

end Record

/-- The message after the records, one after the other. -/
def assignAll (records : List Record) (message : RpcMessage) : RpcMessage :=
  records.foldl (fun message record => record.set message) message

@[simp] theorem assignAll_nil (message : RpcMessage) : assignAll [] message = message := rfl

@[simp] theorem assignAll_cons (record : Record) (records : List Record) (message : RpcMessage) :
    assignAll (record :: records) message = assignAll records (record.set message) := rfl

theorem assignAll_append (first second : List Record) (message : RpcMessage) :
    assignAll (first ++ second) message = assignAll second (assignAll first message) :=
  List.foldl_append

/-! ### The readers find what stands at the position -/

section Readers

variable {bytes : List UInt8} {pos next : ℕ}

theorem append_prefix_drop_iff {first second : List UInt8} :
    first ++ second <+: bytes.drop pos ↔
      first <+: bytes.drop pos ∧ second <+: bytes.drop (pos + first.length) := by
  constructor
  · rintro ⟨rest, unread⟩
    rw [List.append_assoc] at unread
    exact ⟨⟨second ++ rest, unread⟩, ⟨rest, (drop_after unread.symm).symm⟩⟩
  · rintro ⟨⟨rest, unread⟩, later⟩
    rw [drop_after unread.symm] at later
    obtain ⟨rest, rfl⟩ := later
    exact ⟨rest, (List.append_assoc _ _ _).trans unread⟩

/-- **`read_varint` reads the varint that stands at the position.** -/
theorem readVarint_eq_some_iff {value : UInt64} :
    readVarint bytes pos = some (value, next) ↔
      ∃ varint : Varint, varint.group <+: bytes.drop pos ∧ varint.value = value ∧
        pos + varint.group.length = next := by
  constructor
  · intro read
    obtain ⟨group, front, closed, short, rfl, rfl⟩ := group_of_readVarint read
    exact ⟨⟨group, closed, short⟩, front, rfl, rfl⟩
  · rintro ⟨varint, ⟨rest, unread⟩, rfl, rfl⟩
    rw [readVarint_eq, ← unread, Leb128.split_append varint.closed varint.short, Option.map_some]
    rfl

theorem readVarintField_eq_some_iff {wireType : UInt32} {value : UInt64} :
    readVarintField bytes pos wireType = some (value, next) ↔
      wireType = kWireVarint ∧ ∃ varint : Varint, varint.group <+: bytes.drop pos ∧
        varint.value = value ∧ pos + varint.group.length = next := by
  unfold readVarintField
  by_cases wire : wireType = kWireVarint
  · rw [if_neg (not_not.mpr wire), readVarint_eq_some_iff, and_iff_right wire]
  · rw [if_pos wire]
    exact ⟨(nomatch ·), fun found => absurd found.1 wire⟩

/-- The bytes of an announced size that stand at a position. -/
theorem prefix_drop_iff_size {size : UInt64} {data : ByteString} (agrees : size = data.size) :
    data.data <+: bytes.drop pos ↔ ¬ size.toNat > bytes.length - pos ∧ substr bytes pos size = data := by
  have length : size.toNat = data.data.length := by rw [agrees, data.toNat_size]
  constructor
  · rintro ⟨rest, unread⟩
    refine ⟨?_, ByteString.ext_data ?_⟩
    · have := congrArg List.length unread
      rw [List.length_append, List.length_drop] at this
      omega
    · show (bytes.drop pos).take size.toNat = data.data
      rw [length, ← unread, List.take_left]
  · rintro ⟨_, rfl⟩
    exact List.take_prefix _ _

theorem size_substr {size : UInt64} (fits : ¬ size.toNat > bytes.length - pos) :
    size = (substr bytes pos size).size := by
  apply UInt64.toNat_inj.mp
  rw [ByteString.toNat_size]
  show size.toNat = ((bytes.drop pos).take size.toNat).length
  rw [List.length_take, List.length_drop]
  omega

theorem readLengthDelimitedField_eq_some_iff {wireType : UInt32} {data : ByteString} :
    readLengthDelimitedField bytes pos wireType = some (data, next) ↔
      wireType = kWireLengthDelimited ∧ ∃ size : Varint, size.value = data.size ∧
        size.group ++ data.data <+: bytes.drop pos ∧
        pos + (size.group ++ data.data).length = next := by
  unfold readLengthDelimitedField
  by_cases wire : wireType = kWireLengthDelimited
  · rw [if_neg (not_not.mpr wire), and_iff_right wire]
    constructor
    · intro read
      split at read
      · cases read
      · rename_i size after readSize
        obtain ⟨varint, stands, rfl, rfl⟩ := readVarint_eq_some_iff.mp readSize
        split_ifs at read with fits
        cases read
        have agrees := size_substr fits
        refine ⟨varint, agrees, append_prefix_drop_iff.mpr ⟨stands, ?_⟩, ?_⟩
        · exact (prefix_drop_iff_size agrees).mpr ⟨fits, rfl⟩
        · rw [List.length_append, ← ByteString.toNat_size, ← agrees, Nat.add_assoc]
    · rintro ⟨varint, agrees, stands, rfl⟩
      obtain ⟨sizeStands, dataStands⟩ := append_prefix_drop_iff.mp stands
      obtain ⟨fits, same⟩ := (prefix_drop_iff_size agrees).mp dataStands
      rw [readVarint_eq_some_iff.mpr ⟨varint, sizeStands, rfl, rfl⟩]
      show (if varint.value.toNat > bytes.length - (pos + varint.group.length) then none
        else some (substr bytes (pos + varint.group.length) varint.value, _)) = _
      rw [if_neg fits, same, List.length_append, agrees, ByteString.toNat_size, Nat.add_assoc]
  · rw [if_pos wire]
    exact ⟨(nomatch ·), fun found => absurd found.1 wire⟩

/-- Moving over a fixed number of bytes. -/
theorem skipFixed_eq_some_iff {count : ℕ} :
    (if bytes.length - pos < count then none else some (pos + count)) = some next ↔
      ∃ data : List UInt8, data.length = count ∧ data <+: bytes.drop pos ∧ pos + data.length = next := by
  constructor
  · intro skipped
    split_ifs at skipped with short
    cases skipped
    have size : ((bytes.drop pos).take count).length = count := by
      rw [List.length_take, List.length_drop]
      omega
    exact ⟨_, size, List.take_prefix _ _, congrArg (pos + ·) size⟩
  · rintro ⟨data, rfl, stands, rfl⟩
    have room := stands.length_le
    rw [List.length_drop] at room
    exact if_neg (by omega)

theorem skipField_varint : skipField bytes pos kWireVarint =
    (readVarint bytes pos).map fun read => read.2 := rfl

theorem skipField_fixed64 :
    skipField bytes pos kWireFixed64 = if bytes.length - pos < 8 then none else some (pos + 8) := rfl

theorem skipField_fixed32 :
    skipField bytes pos kWireFixed32 = if bytes.length - pos < 4 then none else some (pos + 4) := rfl

/-- A length-delimited content is skipped as it is read. -/
theorem skipField_lengthDelimited :
    skipField bytes pos kWireLengthDelimited =
      (readLengthDelimitedField bytes pos kWireLengthDelimited).map fun read => read.2 := by
  rw [skipField, if_neg (by decide), if_neg (by decide), if_pos rfl, readLengthDelimitedField,
    if_neg (not_not.mpr rfl)]
  cases readVarint bytes pos with
  | none => rfl
  | some found =>
      obtain ⟨size, after⟩ := found
      by_cases long : size.toNat > bytes.length - after
      · simp only [if_pos long, Option.map_none]
      · simp only [if_neg long, Option.map_some]

/-- **`skip_field` moves over the content of the wire type that stands at the position.** -/
theorem skipField_eq_some_iff {wireType : UInt32} :
    skipField bytes pos wireType = some next ↔
      ∃ content : Content, content.wireType = wireType ∧ content.bytes <+: bytes.drop pos ∧
        pos + content.bytes.length = next := by
  constructor
  · intro skipped
    by_cases varint : wireType = kWireVarint
    · rw [varint, skipField_varint] at skipped
      obtain ⟨⟨value, after⟩, read, rfl⟩ := Option.map_eq_some_iff.mp skipped
      obtain ⟨value, stands, _, rfl⟩ := readVarint_eq_some_iff.mp read
      exact ⟨.varint value, varint.symm, stands, rfl⟩
    by_cases fixed64 : wireType = kWireFixed64
    · rw [fixed64, skipField_fixed64] at skipped
      obtain ⟨data, size, stands, rfl⟩ := skipFixed_eq_some_iff.mp skipped
      exact ⟨.fixed64 data size, fixed64.symm, stands, rfl⟩
    by_cases lengthDelimited : wireType = kWireLengthDelimited
    · rw [lengthDelimited, skipField_lengthDelimited] at skipped
      obtain ⟨⟨data, after⟩, read, rfl⟩ := Option.map_eq_some_iff.mp skipped
      obtain ⟨_, size, agrees, stands, rfl⟩ := readLengthDelimitedField_eq_some_iff.mp read
      exact ⟨.lengthDelimited size data agrees, lengthDelimited.symm, stands, rfl⟩
    by_cases fixed32 : wireType = kWireFixed32
    · rw [fixed32, skipField_fixed32] at skipped
      obtain ⟨data, size, stands, rfl⟩ := skipFixed_eq_some_iff.mp skipped
      exact ⟨.fixed32 data size, fixed32.symm, stands, rfl⟩
    · rw [skipField, if_neg varint, if_neg fixed64, if_neg lengthDelimited, if_neg fixed32] at skipped
      cases skipped
  · rintro ⟨content, rfl, stands, rfl⟩
    cases content with
    | varint value =>
        have read := readVarint_eq_some_iff.mpr ⟨value, stands, rfl, rfl⟩
        exact skipField_varint.trans (Option.map_eq_some_iff.mpr ⟨_, read, rfl⟩)
    | fixed64 data size => exact skipField_fixed64.trans (skipFixed_eq_some_iff.mpr ⟨data, size, stands, rfl⟩)
    | lengthDelimited size data agrees =>
        have read := readLengthDelimitedField_eq_some_iff.mpr ⟨rfl, size, agrees, stands, rfl⟩
        exact skipField_lengthDelimited.trans (Option.map_eq_some_iff.mpr ⟨_, read, rfl⟩)
    | fixed32 data size => exact skipField_fixed32.trans (skipFixed_eq_some_iff.mpr ⟨data, size, stands, rfl⟩)

/-- A field that takes every varint and nothing else. -/
theorem map_readVarintField_iff {wireType : UInt32} {field : Option Field} {message message' : RpcMessage}
    {sets : UInt64 × ℕ → RpcMessage × ℕ} (takes : ∀ varint, Takes field (.varint varint))
    (only : ∀ content, Takes field content → ∃ varint, content = .varint varint)
    (assigns : ∀ varint after,
      sets (varint.value, after) = (assign field (.varint varint) message, after)) :
    (readVarintField bytes pos wireType).map sets = some (message', next) ↔
      ∃ content : Content, wireType = content.wireType ∧ content.bytes <+: bytes.drop pos ∧
        Takes field content ∧ assign field content message = message' ∧
        pos + content.bytes.length = next := by
  rw [Option.map_eq_some_iff]
  constructor
  · rintro ⟨⟨value, after⟩, read, same⟩
    obtain ⟨wire, varint, stands, rfl, rfl⟩ := readVarintField_eq_some_iff.mp read
    cases (assigns varint _).symm.trans same
    exact ⟨.varint varint, wire, stands, takes varint, rfl, rfl⟩
  · rintro ⟨content, wire, stands, taken, rfl, rfl⟩
    obtain ⟨varint, rfl⟩ := only content taken
    exact ⟨_, readVarintField_eq_some_iff.mpr ⟨wire, varint, stands, rfl, rfl⟩, assigns varint _⟩

/-- A field that takes every length-delimited content and nothing else. -/
theorem map_readLengthDelimitedField_iff {wireType : UInt32} {field : Option Field}
    {message message' : RpcMessage} {sets : ByteString × ℕ → RpcMessage × ℕ}
    (takes : ∀ size data agrees, Takes field (.lengthDelimited size data agrees))
    (only : ∀ content, Takes field content →
      ∃ size data agrees, content = .lengthDelimited size data agrees)
    (assigns : ∀ size data agrees after,
      sets (data, after) = (assign field (.lengthDelimited size data agrees) message, after)) :
    (readLengthDelimitedField bytes pos wireType).map sets = some (message', next) ↔
      ∃ content : Content, wireType = content.wireType ∧ content.bytes <+: bytes.drop pos ∧
        Takes field content ∧ assign field content message = message' ∧
        pos + content.bytes.length = next := by
  rw [Option.map_eq_some_iff]
  constructor
  · rintro ⟨⟨value, after⟩, read, same⟩
    obtain ⟨wire, size, agrees, stands, rfl⟩ := readLengthDelimitedField_eq_some_iff.mp read
    cases (assigns size value agrees _).symm.trans same
    exact ⟨.lengthDelimited size value agrees, wire, stands, takes _ _ _, rfl, rfl⟩
  · rintro ⟨content, wire, stands, taken, rfl, rfl⟩
    obtain ⟨size, data, agrees, rfl⟩ := only content taken
    exact ⟨_, readLengthDelimitedField_eq_some_iff.mpr ⟨wire, size, agrees, stands, rfl⟩,
      assigns size data agrees _⟩

theorem varint_of_takes {field : Field} (numeric : field = .id ∨ field = .kind ∨ field = .status)
    (content : Content) (taken : Takes (some field) content) :
    ∃ varint, content = .varint varint := by
  cases content with
  | varint value => exact ⟨value, rfl⟩
  | _ => rcases numeric with rfl | rfl | rfl <;> exact taken.elim

theorem lengthDelimited_of_takes {field : Field}
    (textual : field = .service ∨ field = .method ∨ field = .payload ∨ field = .error)
    (content : Content) (taken : Takes (some field) content) :
    ∃ size data agrees, content = .lengthDelimited size data agrees := by
  cases content with
  | lengthDelimited size data agrees => exact ⟨size, data, agrees, rfl⟩
  | _ => rcases textual with rfl | rfl | rfl | rfl <;> exact taken.elim

/-- A number that is none of the fields is skipped. -/
theorem decodeSwitch_of_unknown {fieldNumber wireType : UInt32} {message : RpcMessage}
    (unknown : Field.ofNumber fieldNumber = none) :
    decodeSwitch bytes pos message fieldNumber wireType =
      (skipField bytes pos wireType).map fun pos => (message, pos) := by
  unfold Field.ofNumber at unknown
  split_ifs at unknown with id kind service method payload error status
  rw [decodeSwitch, if_neg id, if_neg kind, if_neg service, if_neg method, if_neg payload, if_neg error,
    if_neg status]

/-- The status is checked besides. -/
theorem decodeSwitch_of_status {wireType : UInt32} {message : RpcMessage} :
    decodeSwitch bytes pos message Field.status.number wireType =
      match readVarintField bytes pos wireType with
      | none => none
      | some (value, pos) =>
          if value > 0x7fffffff then none
          else some ({ message with status := value.toUInt32.toInt32 }, pos) := rfl

/-- **The `switch` takes the content that stands after the tag**, or returns `std::nullopt`. -/
theorem decodeSwitch_eq_some_iff {fieldNumber wireType : UInt32} {message message' : RpcMessage} :
    decodeSwitch bytes pos message fieldNumber wireType = some (message', next) ↔
      ∃ content : Content, wireType = content.wireType ∧ content.bytes <+: bytes.drop pos ∧
        Takes (Field.ofNumber fieldNumber) content ∧
        assign (Field.ofNumber fieldNumber) content message = message' ∧
        pos + content.bytes.length = next := by
  cases found : Field.ofNumber fieldNumber with
  | none =>
      rw [decodeSwitch_of_unknown found, Option.map_eq_some_iff]
      constructor
      · rintro ⟨after, skipped, same⟩
        obtain ⟨content, wire, stands, rfl⟩ := skipField_eq_some_iff.mp skipped
        cases same
        exact ⟨content, wire.symm, stands, trivial, rfl, rfl⟩
      · rintro ⟨content, wire, stands, _, rfl, rfl⟩
        exact ⟨_, skipField_eq_some_iff.mpr ⟨content, wire.symm, stands, rfl⟩, rfl⟩
  | some field =>
      obtain rfl := Field.number_of_ofNumber found
      cases field with
      | id | kind =>
          apply map_readVarintField_iff
          · exact fun _ => trivial
          · exact varint_of_takes (by decide)
          · exact fun _ _ => rfl
      | service | method | payload | error =>
          apply map_readLengthDelimitedField_iff
          · exact fun _ _ _ => trivial
          · exact lengthDelimited_of_takes (by decide)
          · exact fun _ _ _ _ => rfl
      | status =>
          constructor
          · intro decoded
            rw [decodeSwitch_of_status] at decoded
            split at decoded
            · cases decoded
            · rename_i value after read
              obtain ⟨wire, varint, stands, rfl, rfl⟩ := readVarintField_eq_some_iff.mp read
              split_ifs at decoded with large
              cases decoded
              exact ⟨.varint varint, wire, stands, UInt64.not_lt.mp large, rfl, rfl⟩
          · rintro ⟨content, wire, stands, taken, rfl, rfl⟩
            obtain ⟨varint, rfl⟩ := varint_of_takes (by decide) content taken
            rw [decodeSwitch_of_status, readVarintField_eq_some_iff.mpr ⟨wire, varint, stands, rfl, rfl⟩]
            exact if_neg (UInt64.not_lt.mpr taken)

/-- **One iteration of `decode` reads one accepted record** and sets what it says. -/
theorem decodeField_eq_some_iff {message message' : RpcMessage} :
    decodeField bytes pos message = some (message', next) ↔
      ∃ record : Record, record.bytes <+: bytes.drop pos ∧ record.Accepted ∧
        record.set message = message' ∧ pos + record.bytes.length = next := by
  unfold decodeField
  constructor
  · intro decoded
    split at decoded
    · cases decoded
    · rename_i tag after readTag
      obtain ⟨tag, stands, rfl, rfl⟩ := readVarint_eq_some_iff.mp readTag
      obtain ⟨content, wire, contentStands, taken, rfl, rfl⟩ := decodeSwitch_eq_some_iff.mp decoded
      refine ⟨⟨tag, content, wire⟩, append_prefix_drop_iff.mpr ⟨stands, contentStands⟩, taken, rfl, ?_⟩
      rw [Record.bytes, List.length_append, Nat.add_assoc]
  · rintro ⟨record, stands, accepted, rfl, rfl⟩
    obtain ⟨tagStands, contentStands⟩ := append_prefix_drop_iff.mp stands
    rw [readVarint_eq_some_iff.mpr ⟨record.tag, tagStands, rfl, rfl⟩, Record.bytes, List.length_append,
      ← Nat.add_assoc]
    exact decodeSwitch_eq_some_iff.mpr
      ⟨record.content, record.announces, contentStands, accepted, rfl, rfl⟩

end Readers

/-! ### `decode` folds the records of the input -/

/-- **The loop folds the records of the unread bytes**, all of which it accepts. -/
theorem decodeLoop_eq_some_iff {bytes : List UInt8} {pos : ℕ} {message final : RpcMessage} :
    decodeLoop bytes pos message = some final ↔
      ∃ records : List Record, bytes.drop pos = recordCode.encodeAll records ∧
        (∀ record ∈ records, record.Accepted) ∧ assignAll records message = final := by
  constructor
  · intro decoded
    fun_induction decodeLoop bytes pos message with
    | case1 pos message inside failed => cases decoded
    | case2 pos message inside message' next field ih =>
        obtain ⟨record, ⟨rest, unread⟩, accepted, rfl, rfl⟩ := decodeField_eq_some_iff.mp field
        obtain ⟨records, rests, all, rfl⟩ := ih decoded
        rw [drop_after unread.symm] at rests
        refine ⟨record :: records, ?_, List.forall_mem_cons.mpr ⟨accepted, all⟩, rfl⟩
        rw [← unread, rests]
        rfl
    | case3 pos message outside =>
        cases decoded
        exact ⟨[], List.drop_eq_nil_of_le (not_lt.mp outside), by simp, rfl⟩
  · rintro ⟨records, unread, all, rfl⟩
    induction records generalizing pos message with
    | nil =>
        have outside : ¬ pos < bytes.length := not_lt.mpr (List.drop_eq_nil_iff.mp unread)
        exact decodeLoop_of_end outside
    | cons record records ih =>
        obtain ⟨accepted, others⟩ := List.forall_mem_cons.mp all
        have inside := pos_lt_of_unread record.bytes_ne_nil unread
        have field : decodeField bytes pos message = some (record.set message, _) :=
          decodeField_eq_some_iff.mpr
            ⟨record, ⟨recordCode.encodeAll records, unread.symm⟩, accepted, rfl, rfl⟩
        rw [decodeLoop_of_field inside field]
        exact ih (drop_after unread) others

/-- **`decode` accepts exactly the sequences of accepted records, and folds them.** -/
theorem decode_eq_some_iff {bytes : List UInt8} {message : RpcMessage} :
    decode bytes = some message ↔
      ∃ records : List Record, bytes = recordCode.encodeAll records ∧
        (∀ record ∈ records, record.Accepted) ∧ assignAll records {} = message :=
  decodeLoop_eq_some_iff

/-- **Accepted records at the front are read before anything else**, whatever follows them. -/
theorem decodeLoop_encodeAll_append {records : List Record} (all : ∀ record ∈ records, record.Accepted)
    (rest : List UInt8) (message : RpcMessage) :
    decodeLoop (recordCode.encodeAll records ++ rest) 0 message =
      decodeLoop rest 0 (assignAll records message) := by
  ext final
  rw [decodeLoop_eq_some_iff, decodeLoop_eq_some_iff]
  constructor
  · rintro ⟨whole, unread, accepted, rfl⟩
    obtain ⟨later, rfl, same⟩ := PrefixCode.encodeAll_front unread
    refine ⟨later, same, fun record mem => accepted record (List.mem_append_right _ mem), ?_⟩
    rw [assignAll_append]
  · rintro ⟨later, rfl, accepted, rfl⟩
    refine ⟨records ++ later, (recordCode.encodeAll_append _ _).symm, ?_, assignAll_append _ _ _⟩
    exact List.forall_mem_append.mpr ⟨all, accepted⟩

/-- **What follows an accepted input is decoded as if it stood alone**, from the message so far. -/
theorem decode_append {first : List UInt8} {message : RpcMessage} (accepts : decode first = some message)
    (rest : List UInt8) : decode (first ++ rest) = decodeLoop rest 0 message := by
  obtain ⟨records, rfl, all, rfl⟩ := decode_eq_some_iff.mp accepts
  exact decodeLoop_encodeAll_append all rest {}

/-! ### The record boundaries of an input -/

/-- Where `decode`'s loop stands when it tests its condition, and the message it has then. -/
inductive Reaches (bytes : List UInt8) : ℕ → RpcMessage → Prop
  | start : Reaches bytes 0 {}
  | next {pos next : ℕ} {message message' : RpcMessage} : Reaches bytes pos message →
      pos < bytes.length → decodeField bytes pos message = some (message', next) →
      Reaches bytes next message'

/-- A record with this tag stands at a record boundary of the input. -/
def TagAt (bytes : List UInt8) (pos : ℕ) (tag : UInt64) : Prop :=
  (∃ message, Reaches bytes pos message) ∧ pos < bytes.length ∧
    ∃ next, readVarint bytes pos = some (tag, next)

theorem length_encodeAll_snoc (records : List Record) (record : Record) :
    (recordCode.encodeAll (records ++ [record])).length =
      (recordCode.encodeAll records).length + record.bytes.length := by
  rw [recordCode.encodeAll_append, List.length_append]
  exact congrArg _ (congrArg List.length (List.append_nil record.bytes))

/-- `decode` stops between the records. -/
theorem Reaches.exists_split {bytes : List UInt8} {pos : ℕ} {message : RpcMessage}
    {records : List Record} (reaches : Reaches bytes pos message)
    (reading : bytes = recordCode.encodeAll records) :
    ∃ done later, records = done ++ later ∧ pos = (recordCode.encodeAll done).length ∧
      message = assignAll done {} := by
  induction reaches with
  | start => exact ⟨[], records, rfl, rfl, rfl⟩
  | next _ inside field ih =>
      obtain ⟨done, later, rfl, rfl, rfl⟩ := ih
      obtain ⟨record, ⟨rest, unread⟩, _, rfl, rfl⟩ := decodeField_eq_some_iff.mp field
      have front : recordCode.encodeAll done ++ (record.bytes ++ rest) =
          recordCode.encodeAll done ++ recordCode.encodeAll later := by
        rw [unread, reading, recordCode.encodeAll_append, List.drop_left]
      cases later with
      | nil =>
          have := List.append_cancel_left front
          exact absurd (List.append_eq_nil_iff.mp this).1 record.bytes_ne_nil
      | cons record' later =>
          obtain rfl : record = record' := recordCode.aligned (List.append_cancel_left front)
          exact ⟨done ++ [record], later, List.append_cons _ _ _, (length_encodeAll_snoc _ _).symm,
            (assignAll_append done [record] _).symm⟩

/-- The loop reaches the end of every sequence of accepted records. -/
theorem reaches_encodeAll {done later : List Record} (all : ∀ record ∈ done, record.Accepted) :
    Reaches (recordCode.encodeAll (done ++ later)) (recordCode.encodeAll done).length
      (assignAll done {}) := by
  induction done using List.reverseRecOn generalizing later with
  | nil => exact .start
  | append_singleton done record ih =>
      obtain ⟨others, accepted⟩ := List.forall_mem_append.mp all
      have before : Reaches (recordCode.encodeAll (done ++ record :: later)) _ _ := ih others
      have unread : (recordCode.encodeAll (done ++ record :: later)).drop
          (recordCode.encodeAll done).length = record.bytes ++ recordCode.encodeAll later := by
        rw [recordCode.encodeAll_append, List.drop_left]
        rfl
      have field : decodeField (recordCode.encodeAll (done ++ record :: later))
          (recordCode.encodeAll done).length (assignAll done {}) = some (record.set (assignAll done {}), _) :=
        decodeField_eq_some_iff.mpr ⟨record, ⟨_, unread.symm⟩,
          accepted record (List.mem_singleton_self _), rfl, rfl⟩
      have after := before.next (pos_lt_of_unread record.bytes_ne_nil unread) field
      rw [← length_encodeAll_snoc, List.append_cons] at after
      rw [assignAll_append]
      exact after

/-- Where a tag stands at a boundary, one of the records stands. -/
theorem TagAt.exists_record {records : List Record} {pos : ℕ} {tag : UInt64}
    (tagAt : TagAt (recordCode.encodeAll records) pos tag) :
    ∃ record ∈ records, record.bytes <+: (recordCode.encodeAll records).drop pos ∧
      record.tag.value = tag := by
  obtain ⟨⟨message, reaches⟩, inside, next, read⟩ := tagAt
  obtain ⟨done, later, rfl, rfl, _⟩ := reaches.exists_split rfl
  cases later with
  | nil =>
      rw [List.append_nil] at inside
      exact absurd inside (lt_irrefl _)
  | cons record later =>
      obtain ⟨varint, ⟨rest, unread⟩, rfl, _⟩ := readVarint_eq_some_iff.mp read
      rw [recordCode.encodeAll_append, List.drop_left] at unread ⊢
      have same : record.tag.group ++ (record.content.bytes ++ recordCode.encodeAll later) =
          varint.group ++ rest := (List.append_assoc _ _ _).symm.trans unread.symm
      refine ⟨record, by simp, List.prefix_append _ _, ?_⟩
      rw [Varint.aligned same]

/-- **The tags at the boundaries of an accepted input are its records' tags.** -/
theorem exists_tagAt_iff {records : List Record} (all : ∀ record ∈ records, record.Accepted)
    {tag : UInt64} :
    (∃ pos, TagAt (recordCode.encodeAll records) pos tag) ↔
      ∃ record ∈ records, record.tag.value = tag := by
  constructor
  · rintro ⟨pos, tagAt⟩
    obtain ⟨record, mem, _, same⟩ := tagAt.exists_record
    exact ⟨record, mem, same⟩
  · rintro ⟨record, mem, rfl⟩
    obtain ⟨done, later, rfl⟩ := List.append_of_mem mem
    have unread : (recordCode.encodeAll (done ++ record :: later)).drop
        (recordCode.encodeAll done).length = record.bytes ++ recordCode.encodeAll later := by
      rw [recordCode.encodeAll_append, List.drop_left]
      rfl
    refine ⟨_, ⟨_, reaches_encodeAll (List.forall_mem_append.mp all).1⟩,
      pos_lt_of_unread record.bytes_ne_nil unread, _, readVarint_eq_some_iff.mpr
        ⟨record.tag, ?_, rfl, rfl⟩⟩
    rw [unread, Record.bytes, List.append_assoc]
    exact List.prefix_append _ _

end Insist.MiniRpc.ProtobufWireCodec
