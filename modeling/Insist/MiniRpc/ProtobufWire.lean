/-
**`ProtobufWireCodec`** (`include/minirpc/protobuf_wire.hpp`, `src/protobuf_wire.cpp`).

The readers keep the source's shape: a byte view, a position into it, and an answer that says where
the position has moved. `decodeField` is the body of `decode`'s loop,
`decodeSwitch` the `switch` in it. A `false` from a reader leads
straight to `std::nullopt` in every caller, so the model does not keep what the reader left in its
reference arguments.
-/
import Insist.Lib.Leb128
import Insist.MiniRpc.Message

namespace Insist.MiniRpc.ProtobufWireCodec

/-- `kWireVarint`. -/
def kWireVarint : UInt32 := 0
/-- `kWireFixed64`. -/
def kWireFixed64 : UInt32 := 1
/-- `kWireLengthDelimited`. -/
def kWireLengthDelimited : UInt32 := 2
/-- `kWireFixed32`. -/
def kWireFixed32 : UInt32 := 5

/-! ### Writing -/

/-- `write_varint`: append the varint of `value` to `out`. -/
def writeVarint (out : List UInt8) (value : UInt64) : List UInt8 :=
  if 0x80 ≤ value then
    writeVarint (out ++ [((value &&& 0x7f) ||| 0x80).toUInt8]) (value >>> 7)
  else out ++ [value.toUInt8]
termination_by value.toNat
decreasing_by
  rename_i large
  rw [UInt64.le_iff_toNat_le] at large
  simp only [UInt64.reduceToNat, UInt64.toNat_shiftRight, Nat.reduceMod,
    Nat.shiftRight_eq_div_pow] at large ⊢
  omega

/-- `write_tag`. -/
def writeTag (out : List UInt8) (fieldNumber wireType : UInt32) : List UInt8 :=
  writeVarint out ((fieldNumber.toUInt64 <<< 3) ||| wireType.toUInt64)

/-- `write_length_delimited`. -/
def writeLengthDelimited (out : List UInt8) (fieldNumber : UInt32) (value : ByteString) :
    List UInt8 :=
  let out := writeTag out fieldNumber kWireLengthDelimited
  let out := writeVarint out value.size
  out ++ value.data

/-- `encode`. -/
def encode (message : RpcMessage) : List UInt8 :=
  let out := []
  let out := if message.id ≠ 0 then writeVarint (writeTag out 1 kWireVarint) message.id else out
  let out :=
    if message.kind ≠ .unknown then
      writeVarint (writeTag out 2 kWireVarint) message.kind.code.toUInt64
    else out
  let out := if ¬ message.service.empty then writeLengthDelimited out 3 message.service else out
  let out := if ¬ message.method.empty then writeLengthDelimited out 4 message.method else out
  let out := if ¬ message.payload.empty then writeLengthDelimited out 5 message.payload else out
  let out :=
    if message.status ≠ 0 then
      writeVarint (writeTag out 6 kWireVarint) message.status.toUInt32.toUInt64
    else out
  let out := if ¬ message.error.empty then writeLengthDelimited out 7 message.error else out
  out

/-! ### Reading -/

/-- The loop of `read_varint`, on the bytes not read yet: `pos` is the position of the first of
them, `shift` and `value` are the locals of the source. -/
def readVarintLoop : List UInt8 → ℕ → ℕ → UInt64 → Option (UInt64 × ℕ)
  | [], _, _, _ => none
  | byte :: rest, pos, shift, value =>
      if shift ≤ 63 then
        let value := value ||| ((byte &&& 0x7f).toUInt64 <<< UInt64.ofNat shift)
        if byte &&& 0x80 = 0 then some (value, pos + 1)
        else readVarintLoop rest (pos + 1) (shift + 7) value
      else none

/-- `read_varint`: the value and the new position, or `none` for `false`. -/
def readVarint (bytes : List UInt8) (pos : ℕ) : Option (UInt64 × ℕ) :=
  readVarintLoop (bytes.drop pos) pos 0 0

/-- `skip_field`: the new position, or `none` for `false`. -/
def skipField (bytes : List UInt8) (pos : ℕ) (wireType : UInt32) : Option ℕ :=
  if wireType = kWireVarint then
    (readVarint bytes pos).map fun read => read.2
  else if wireType = kWireFixed64 then
    if bytes.length - pos < 8 then none else some (pos + 8)
  else if wireType = kWireLengthDelimited then
    match readVarint bytes pos with
    | none => none
    | some (size, pos) =>
        if size.toNat > bytes.length - pos then none else some (pos + size.toNat)
  else if wireType = kWireFixed32 then
    if bytes.length - pos < 4 then none else some (pos + 4)
  else none

/-- `bytes.substr(pos, size)` as a `std::string`. -/
def substr (bytes : List UInt8) (pos : ℕ) (size : UInt64) : ByteString :=
  ⟨(bytes.drop pos).take size.toNat, by
    rw [List.length_take]
    exact lt_of_le_of_lt (Nat.min_le_left _ _) size.toNat_lt⟩

/-- The read shared by the varint fields: the wire type is checked, then the value is read. -/
def readVarintField (bytes : List UInt8) (pos : ℕ) (wireType : UInt32) : Option (UInt64 × ℕ) :=
  if wireType ≠ kWireVarint then none else readVarint bytes pos

/-- The read shared by the length-delimited fields: wire type, size, bounds check, bytes. -/
def readLengthDelimitedField (bytes : List UInt8) (pos : ℕ) (wireType : UInt32) :
    Option (ByteString × ℕ) :=
  if wireType ≠ kWireLengthDelimited then none
  else
    match readVarint bytes pos with
    | none => none
    | some (size, pos) =>
        if size.toNat > bytes.length - pos then none
        else some (substr bytes pos size, pos + size.toNat)

/-- The `switch` of `decode`, at the position after the tag. -/
def decodeSwitch (bytes : List UInt8) (pos : ℕ) (message : RpcMessage)
    (fieldNumber wireType : UInt32) : Option (RpcMessage × ℕ) :=
  if fieldNumber = 1 then
    (readVarintField bytes pos wireType).map fun (value, pos) =>
      ({ message with id := value }, pos)
  else if fieldNumber = 2 then
    (readVarintField bytes pos wireType).map fun (value, pos) =>
      ({ message with kind := ⟨value.toUInt32⟩ }, pos)
  else if fieldNumber = 3 then
    (readLengthDelimitedField bytes pos wireType).map fun (value, pos) =>
      ({ message with service := value }, pos)
  else if fieldNumber = 4 then
    (readLengthDelimitedField bytes pos wireType).map fun (value, pos) =>
      ({ message with method := value }, pos)
  else if fieldNumber = 5 then
    (readLengthDelimitedField bytes pos wireType).map fun (value, pos) =>
      ({ message with payload := value }, pos)
  else if fieldNumber = 7 then
    (readLengthDelimitedField bytes pos wireType).map fun (value, pos) =>
      ({ message with error := value }, pos)
  else if fieldNumber = 6 then
    match readVarintField bytes pos wireType with
    | none => none
    | some (value, pos) =>
        -- `std::numeric_limits<std::int32_t>::max()`
        if value > 0x7fffffff then none
        else some ({ message with status := value.toUInt32.toInt32 }, pos)
  else
    (skipField bytes pos wireType).map fun pos => (message, pos)

/-- One iteration of `decode`'s loop: the message and the position after the record at `pos`, or
`none` where the source returns `std::nullopt`. -/
def decodeField (bytes : List UInt8) (pos : ℕ) (message : RpcMessage) :
    Option (RpcMessage × ℕ) :=
  match readVarint bytes pos with
  | none => none
  | some (tag, pos) =>
      decodeSwitch bytes pos message (tag >>> 3).toUInt32 (tag &&& 0x07).toUInt32

/-! ### Every reader moves the position forward -/

theorem readVarintLoop_advances {bytes : List UInt8} : ∀ {pos shift : ℕ} {value : UInt64}
    {read : UInt64 × ℕ}, readVarintLoop bytes pos shift value = some read → pos < read.2 := by
  induction bytes with
  | nil =>
      intro pos shift value read succeeded
      cases succeeded
  | cons byte rest ih =>
      intro pos shift value read succeeded
      rw [readVarintLoop] at succeeded
      simp only at succeeded
      split_ifs at succeeded with room unmarked
      · cases succeeded
        exact Nat.lt_succ_self pos
      · exact Nat.lt_trans (Nat.lt_succ_self pos) (ih succeeded)

theorem readVarint_advances {bytes : List UInt8} {pos : ℕ} {read : UInt64 × ℕ}
    (succeeded : readVarint bytes pos = some read) : pos < read.2 :=
  readVarintLoop_advances succeeded

theorem readVarintField_advances {bytes : List UInt8} {pos : ℕ} {wireType : UInt32}
    {read : UInt64 × ℕ} (succeeded : readVarintField bytes pos wireType = some read) :
    pos < read.2 := by
  unfold readVarintField at succeeded
  split_ifs at succeeded
  exact readVarint_advances succeeded

theorem readLengthDelimitedField_advances {bytes : List UInt8} {pos : ℕ} {wireType : UInt32}
    {read : ByteString × ℕ} (succeeded : readLengthDelimitedField bytes pos wireType = some read) :
    pos < read.2 := by
  unfold readLengthDelimitedField at succeeded
  split_ifs at succeeded
  split at succeeded
  · cases succeeded
  · rename_i size next readSize
    have sizeRead := readVarint_advances readSize
    split_ifs at succeeded
    cases succeeded
    exact Nat.lt_of_lt_of_le sizeRead (Nat.le_add_right _ _)

theorem skipField_advances {bytes : List UInt8} {pos next : ℕ} {wireType : UInt32}
    (succeeded : skipField bytes pos wireType = some next) : pos < next := by
  unfold skipField at succeeded
  split_ifs at succeeded
  · obtain ⟨read, varint, rfl⟩ := Option.map_eq_some_iff.mp succeeded
    exact readVarint_advances varint
  · cases succeeded
    omega
  · split at succeeded
    · cases succeeded
    · rename_i size middle readSize
      have sizeRead := readVarint_advances readSize
      split_ifs at succeeded
      cases succeeded
      exact Nat.lt_of_lt_of_le sizeRead (Nat.le_add_right _ _)
  · cases succeeded
    omega

theorem decodeSwitch_advances {bytes : List UInt8} {pos : ℕ} {message : RpcMessage}
    {fieldNumber wireType : UInt32} {decoded : RpcMessage × ℕ}
    (succeeded : decodeSwitch bytes pos message fieldNumber wireType = some decoded) :
    pos < decoded.2 := by
  unfold decodeSwitch at succeeded
  split_ifs at succeeded
  case pos | pos =>
    obtain ⟨read, field, rfl⟩ := Option.map_eq_some_iff.mp succeeded
    exact readVarintField_advances field
  case pos | pos | pos | pos =>
    obtain ⟨read, field, rfl⟩ := Option.map_eq_some_iff.mp succeeded
    exact readLengthDelimitedField_advances field
  case pos =>
    split at succeeded
    · cases succeeded
    · rename_i value after field
      have fieldRead := readVarintField_advances field
      split_ifs at succeeded
      cases succeeded
      exact fieldRead
  case neg =>
    obtain ⟨after, skipped, rfl⟩ := Option.map_eq_some_iff.mp succeeded
    exact skipField_advances skipped

/-- **One iteration of `decode` consumes at least one byte.** -/
theorem decodeField_advances {bytes : List UInt8} {pos : ℕ} {message : RpcMessage}
    {decoded : RpcMessage × ℕ} (succeeded : decodeField bytes pos message = some decoded) :
    pos < decoded.2 := by
  unfold decodeField at succeeded
  split at succeeded
  · cases succeeded
  · rename_i tag next readTag
    exact Nat.lt_trans (readVarint_advances readTag) (decodeSwitch_advances succeeded)

/-- The loop of `decode`. -/
def decodeLoop (bytes : List UInt8) (pos : ℕ) (message : RpcMessage) : Option RpcMessage :=
  if pos < bytes.length then
    match _step : decodeField bytes pos message with
    | none => none
    | some (message, next) => decodeLoop bytes next message
  else some message
termination_by bytes.length - pos
decreasing_by
  have := decodeField_advances _step
  omega

section Turns

variable {bytes : List UInt8} {pos : ℕ} {message : RpcMessage}

/-- One turn of the loop, where a record is read. -/
theorem decodeLoop_of_field {next : ℕ} {message' : RpcMessage} (inside : pos < bytes.length)
    (decoded : decodeField bytes pos message = some (message', next)) :
    decodeLoop bytes pos message = decodeLoop bytes next message' := by
  rw [decodeLoop, if_pos inside]
  split
  · rename_i failed
    rw [decoded] at failed
    cases failed
  · rename_i middle after decoded'
    rw [decoded] at decoded'
    cases decoded'
    rfl

/-- One turn of the loop, where no record is read. -/
theorem decodeLoop_of_failed (inside : pos < bytes.length)
    (failed : decodeField bytes pos message = none) : decodeLoop bytes pos message = none := by
  rw [decodeLoop, if_pos inside]
  split
  · rfl
  · rename_i next after decoded
    rw [failed] at decoded
    cases decoded

/-- The end of the input. -/
theorem decodeLoop_of_end (outside : ¬ pos < bytes.length) :
    decodeLoop bytes pos message = some message := by
  rw [decodeLoop, if_neg outside]

end Turns

/-- `decode`. -/
def decode (bytes : List UInt8) : Option RpcMessage :=
  decodeLoop bytes 0 {}

end Insist.MiniRpc.ProtobufWireCodec
