/-
**`decode` on machine words, with every operation that could go wrong checked.**

`Checked` writes the readers once more, as the source has them: the position is a `std::size_t`, every access to
the view, every shift, every difference and sum of positions and every call of `substr` is an operation that
faults where the source's would be undefined, wrap or throw, an assignment to `pos` faults beyond the end of the
view, and an iteration of `decode`'s loop that does not move the position faults too.

* `readByte_eq`, `remaining_eq`, `advance_eq`, `shiftLeft_eq`, `substr_eq` — when the operations do not fault;
* `readVarint_checked`, `skipField_checked`, `decodeField_checked` — from a position inside the view, each
  reader does what its model does, and ends inside the view;
* `decode_safe` — **no input makes `decode` fault**, and it takes at most one iteration for each byte.
-/
import Insist.MiniRpc.Records

namespace Insist.MiniRpc.ProtobufWireCodec

/-- What could go wrong while an input is decoded. -/
inductive Fault
  /-- A byte outside the view is read. -/
  | outsideRead
  /-- A `std::uint64_t` is shifted by at least 64. -/
  | wideShift
  /-- `bytes.size() - pos` wraps around. -/
  | wrappedDifference
  /-- A sum of positions is not a `std::size_t`. -/
  | overflow
  /-- `pos` is moved beyond `bytes.size()`. -/
  | outsidePosition
  /-- `substr` throws `std::out_of_range`. -/
  | outOfRange
  /-- An iteration leaves `pos` where it was, or the loop takes more iterations than there are bytes. -/
  | noProgress
deriving DecidableEq, Repr

namespace Checked

variable (bytes : ByteString)

/-! ### The operations -/

/-- `bytes[pos]`. -/
def readByte (pos : UInt64) : Except Fault UInt8 :=
  match bytes.data[pos.toNat]? with
  | some byte => .ok byte
  | none => .error .outsideRead

/-- `bytes.size() - pos`. -/
def remaining (pos : UInt64) : Except Fault UInt64 :=
  if bytes.size < pos then .error .wrappedDifference else .ok (bytes.size - pos)

/-- `pos += count`. -/
def advance (pos count : UInt64) : Except Fault UInt64 :=
  if 2 ^ 64 ≤ pos.toNat + count.toNat then .error .overflow
  else if bytes.size < pos + count then .error .outsidePosition
  else .ok (pos + count)

/-- `value << shift` on a `std::uint64_t`. -/
def shiftLeft (value : UInt64) (shift : ℕ) : Except Fault UInt64 :=
  if 64 ≤ shift then .error .wideShift else .ok (value <<< UInt64.ofNat shift)

/-- `bytes.substr(pos, size)`. -/
def substr (pos size : UInt64) : Except Fault ByteString :=
  if bytes.size < pos then .error .outOfRange
  else .ok (ProtobufWireCodec.substr bytes.data pos.toNat size)

/-! ### The readers -/

/-- The loop of `read_varint`. -/
def readVarintLoop (pos : UInt64) (shift : ℕ) (value : UInt64) :
    Except Fault (Option (UInt64 × UInt64)) :=
  if pos < bytes.size ∧ shift ≤ 63 then do
    let byte ← readByte bytes pos
    let pos ← advance bytes pos 1
    let part ← shiftLeft (byte &&& 0x7f).toUInt64 shift
    let value := value ||| part
    if byte &&& 0x80 = 0 then return some (value, pos)
    else readVarintLoop pos (shift + 7) value
  else return none
termination_by 64 - shift

/-- `read_varint`. -/
def readVarint (pos : UInt64) : Except Fault (Option (UInt64 × UInt64)) :=
  readVarintLoop bytes pos 0 0

/-- `skip_field`. -/
def skipField (pos : UInt64) (wireType : UInt32) : Except Fault (Option UInt64) :=
  if wireType = kWireVarint then do
    let read ← readVarint bytes pos
    return read.map fun read => read.2
  else if wireType = kWireFixed64 then do
    let left ← remaining bytes pos
    if left < 8 then return none
    let pos ← advance bytes pos 8
    return some pos
  else if wireType = kWireLengthDelimited then do
    match ← readVarint bytes pos with
    | none => return none
    | some (size, pos) =>
        let left ← remaining bytes pos
        if size > left then return none
        let pos ← advance bytes pos size
        return some pos
  else if wireType = kWireFixed32 then do
    let left ← remaining bytes pos
    if left < 4 then return none
    let pos ← advance bytes pos 4
    return some pos
  else return none

/-- The read of a varint field. -/
def readVarintField (pos : UInt64) (wireType : UInt32) : Except Fault (Option (UInt64 × UInt64)) :=
  if wireType ≠ kWireVarint then return none else readVarint bytes pos

/-- The read of a length-delimited field. -/
def readLengthDelimitedField (pos : UInt64) (wireType : UInt32) :
    Except Fault (Option (ByteString × UInt64)) :=
  if wireType ≠ kWireLengthDelimited then return none
  else do
    match ← readVarint bytes pos with
    | none => return none
    | some (size, pos) =>
        let left ← remaining bytes pos
        if size > left then return none
        let value ← substr bytes pos size
        let pos ← advance bytes pos size
        return some (value, pos)

/-- The `switch` of `decode`. -/
def decodeSwitch (pos : UInt64) (message : RpcMessage) (fieldNumber wireType : UInt32) :
    Except Fault (Option (RpcMessage × UInt64)) :=
  if fieldNumber = 1 then do
    let read ← readVarintField bytes pos wireType
    return read.map fun (value, pos) => ({ message with id := value }, pos)
  else if fieldNumber = 2 then do
    let read ← readVarintField bytes pos wireType
    return read.map fun (value, pos) => ({ message with kind := ⟨value.toUInt32⟩ }, pos)
  else if fieldNumber = 3 then do
    let read ← readLengthDelimitedField bytes pos wireType
    return read.map fun (value, pos) => ({ message with service := value }, pos)
  else if fieldNumber = 4 then do
    let read ← readLengthDelimitedField bytes pos wireType
    return read.map fun (value, pos) => ({ message with method := value }, pos)
  else if fieldNumber = 5 then do
    let read ← readLengthDelimitedField bytes pos wireType
    return read.map fun (value, pos) => ({ message with payload := value }, pos)
  else if fieldNumber = 7 then do
    let read ← readLengthDelimitedField bytes pos wireType
    return read.map fun (value, pos) => ({ message with error := value }, pos)
  else if fieldNumber = 6 then do
    match ← readVarintField bytes pos wireType with
    | none => return none
    | some (value, pos) =>
        if value > 0x7fffffff then return none
        else return some ({ message with status := value.toUInt32.toInt32 }, pos)
  else do
    let skipped ← skipField bytes pos wireType
    return skipped.map fun pos => (message, pos)

/-- One iteration of `decode`'s loop. -/
def decodeField (pos : UInt64) (message : RpcMessage) :
    Except Fault (Option (RpcMessage × UInt64)) := do
  match ← readVarint bytes pos with
  | none => return none
  | some (tag, pos) => decodeSwitch bytes pos message (tag >>> 3).toUInt32 (tag &&& 0x07).toUInt32

/-- The loop of `decode`, with at most `fuel` iterations. -/
def decodeLoop (fuel : ℕ) (pos : UInt64) (message : RpcMessage) : Except Fault (Option RpcMessage) :=
  if pos < bytes.size then
    match fuel with
    | 0 => .error .noProgress
    | fuel + 1 => do
        match ← decodeField bytes pos message with
        | none => return none
        | some (message, next) =>
            if next ≤ pos then .error .noProgress else decodeLoop fuel next message
  else return some message

/-- `decode`, with one iteration for each byte. -/
def decode : Except Fault (Option RpcMessage) := decodeLoop bytes bytes.data.length 0 {}

/-! ### The operations, where they do not fault -/

variable {bytes}

/-- A reader's answer with the position as a word. -/
def toWord {α : Type} (read : α × ℕ) : α × UInt64 := (read.1, UInt64.ofNat read.2)

theorem ok_bind {α β : Type} (value : α) (next : α → Except Fault β) :
    (Except.ok value >>= next) = next value := rfl

section Operations

variable {pos : ℕ}

theorem toNat_word (inside : pos ≤ bytes.data.length) : (UInt64.ofNat pos).toNat = pos := by
  rw [UInt64.toNat_ofNat']
  exact Nat.mod_eq_of_lt (lt_of_le_of_lt inside bytes.size_lt)

theorem word_lt_size_iff (inside : pos ≤ bytes.data.length) :
    UInt64.ofNat pos < bytes.size ↔ pos < bytes.data.length := by
  rw [UInt64.lt_iff_toNat_lt, toNat_word inside, bytes.toNat_size]

theorem readByte_eq {byte : UInt8} {rest : List UInt8} (inside : pos ≤ bytes.data.length)
    (unread : bytes.data.drop pos = byte :: rest) : readByte bytes (UInt64.ofNat pos) = .ok byte := by
  have found : bytes.data[pos]? = some byte := by
    rw [← List.head?_drop, unread]
    rfl
  rw [readByte, toNat_word inside, found]

theorem remaining_eq (inside : pos ≤ bytes.data.length) :
    remaining bytes (UInt64.ofNat pos) = .ok (UInt64.ofNat (bytes.data.length - pos)) := by
  have notBeyond : ¬ bytes.size < UInt64.ofNat pos := by
    rw [UInt64.lt_iff_toNat_lt, toNat_word inside, bytes.toNat_size]
    exact not_lt.mpr inside
  have word := toNat_word (Nat.sub_le bytes.data.length pos)
  rw [remaining, if_neg notBeyond]
  congr 1
  apply UInt64.toNat_inj.mp
  rw [UInt64.toNat_sub_of_le _ _ (UInt64.not_lt.mp notBeyond), word, bytes.toNat_size, toNat_word inside]

theorem advance_eq {count : UInt64} (fits : pos + count.toNat ≤ bytes.data.length) :
    advance bytes (UInt64.ofNat pos) count = .ok (UInt64.ofNat (pos + count.toNat)) := by
  have bound := bytes.size_lt
  have word := toNat_word (Nat.le_of_add_right_le fits)
  have sum : UInt64.ofNat pos + count = UInt64.ofNat (pos + count.toNat) := by
    rw [UInt64.ofNat_add, UInt64.ofNat_toNat]
  have notBeyond : ¬ bytes.size < UInt64.ofNat pos + count := by
    rw [sum, UInt64.lt_iff_toNat_lt, toNat_word fits, bytes.toNat_size]
    exact not_lt.mpr fits
  rw [advance, word, if_neg (by omega), if_neg notBeyond, sum]

theorem shiftLeft_eq {shift : ℕ} (small : shift ≤ 63) (value : UInt64) :
    shiftLeft value shift = .ok (value <<< UInt64.ofNat shift) :=
  if_neg (by omega)

theorem substr_eq (inside : pos ≤ bytes.data.length) (size : UInt64) :
    substr bytes (UInt64.ofNat pos) size = .ok (ProtobufWireCodec.substr bytes.data pos size) := by
  have notBeyond : ¬ bytes.size < UInt64.ofNat pos := by
    rw [UInt64.lt_iff_toNat_lt, toNat_word inside, bytes.toNat_size]
    exact not_lt.mpr inside
  rw [substr, if_neg notBeyond, toNat_word inside]

end Operations

/-! ### The readers do what their models do -/

section Readers

variable {pos : ℕ}

/-- **The loop of `read_varint` does not fault.** -/
theorem readVarintLoop_checked {unread : List UInt8} : ∀ {pos shift : ℕ} {value : UInt64},
    pos ≤ bytes.data.length → bytes.data.drop pos = unread →
    readVarintLoop bytes (UInt64.ofNat pos) shift value =
      .ok ((ProtobufWireCodec.readVarintLoop unread pos shift value).map toWord) := by
  induction unread with
  | nil =>
      intro pos shift value inside unread
      have atEnd : ¬ (UInt64.ofNat pos < bytes.size ∧ shift ≤ 63) := fun room =>
        absurd ((word_lt_size_iff inside).mp room.1) (not_lt.mpr (List.drop_eq_nil_iff.mp unread))
      rw [readVarintLoop, if_neg atEnd]
      rfl
  | cons byte rest ih =>
      intro pos shift value inside unread
      have before : pos < bytes.data.length := by
        by_contra outside
        rw [List.drop_eq_nil_of_le (not_lt.mp outside)] at unread
        cases unread
      rw [readVarintLoop, ProtobufWireCodec.readVarintLoop]
      by_cases small : shift ≤ 63
      · have moved : advance bytes (UInt64.ofNat pos) 1 = .ok (UInt64.ofNat (pos + 1)) :=
          advance_eq before
        have later : bytes.data.drop (pos + 1) = rest := by
          rw [← List.drop_drop, unread]
          rfl
        rw [if_pos ⟨(word_lt_size_iff inside).mpr before, small⟩, if_pos small, readByte_eq inside unread,
          ok_bind, moved, ok_bind, shiftLeft_eq small, ok_bind]
        simp only
        split_ifs
        · rfl
        · exact ih before later
      · rw [if_neg fun room => small room.2, if_neg small]
        rfl

theorem readVarint_checked (inside : pos ≤ bytes.data.length) :
    readVarint bytes (UInt64.ofNat pos) =
      .ok ((ProtobufWireCodec.readVarint bytes.data pos).map toWord) :=
  readVarintLoop_checked inside rfl

/-- `read_varint` ends inside the view. -/
theorem readVarint_le (inside : pos ≤ bytes.data.length) {value : UInt64} {next : ℕ}
    (read : ProtobufWireCodec.readVarint bytes.data pos = some (value, next)) :
    next ≤ bytes.data.length := by
  obtain ⟨varint, stands, _, rfl⟩ := readVarint_eq_some_iff.mp read
  have := stands.length_le
  rw [List.length_drop] at this
  omega

/-- A length that is compared with what is left of the view. -/
theorem fits_iff {size : UInt64} :
    size > UInt64.ofNat (bytes.data.length - pos) ↔ size.toNat > bytes.data.length - pos := by
  rw [gt_iff_lt, UInt64.lt_iff_toNat_lt, toNat_word (Nat.sub_le _ _)]

theorem left_lt_iff {count : UInt64} :
    UInt64.ofNat (bytes.data.length - pos) < count ↔ bytes.data.length - pos < count.toNat := by
  rw [UInt64.lt_iff_toNat_lt, toNat_word (Nat.sub_le _ _)]

/-- Moving over a fixed number of bytes, if there are as many. -/
theorem skipFixed_checked (inside : pos ≤ bytes.data.length) (count : UInt64) :
    (do let left ← remaining bytes (UInt64.ofNat pos)
        if left < count then return none
        let pos ← advance bytes (UInt64.ofNat pos) count
        return some pos) =
      (.ok ((if bytes.data.length - pos < count.toNat then none else some (pos + count.toNat)).map
        UInt64.ofNat) : Except Fault (Option UInt64)) := by
  rw [remaining_eq inside, ok_bind]
  by_cases short : bytes.data.length - pos < count.toNat
  · rw [if_pos (left_lt_iff.mpr short), if_pos short]
    rfl
  · rw [if_neg fun left => short (left_lt_iff.mp left), if_neg short, advance_eq (by omega)]
    rfl

/-- **`skip_field` does not fault.** -/
theorem skipField_checked (inside : pos ≤ bytes.data.length) (wireType : UInt32) :
    skipField bytes (UInt64.ofNat pos) wireType =
      .ok ((ProtobufWireCodec.skipField bytes.data pos wireType).map UInt64.ofNat) := by
  unfold skipField ProtobufWireCodec.skipField
  by_cases varint : wireType = kWireVarint
  · rw [if_pos varint, if_pos varint, readVarint_checked inside, ok_bind, Option.map_map, Option.map_map]
    rfl
  rw [if_neg varint, if_neg varint]
  by_cases fixed64 : wireType = kWireFixed64
  · rw [if_pos fixed64, if_pos fixed64]
    exact skipFixed_checked inside 8
  rw [if_neg fixed64, if_neg fixed64]
  by_cases lengthDelimited : wireType = kWireLengthDelimited
  · rw [if_pos lengthDelimited, if_pos lengthDelimited, readVarint_checked inside, ok_bind]
    cases read : ProtobufWireCodec.readVarint bytes.data pos with
    | none => rfl
    | some found =>
        obtain ⟨size, after⟩ := found
        have insideAfter := readVarint_le inside read
        simp only [Option.map_some, toWord]
        rw [remaining_eq insideAfter, ok_bind]
        by_cases long : size.toNat > bytes.data.length - after
        · rw [if_pos (fits_iff.mpr long), if_pos long]
          rfl
        · rw [if_neg fun large => long (fits_iff.mp large), if_neg long, advance_eq (by omega)]
          rfl
  rw [if_neg lengthDelimited, if_neg lengthDelimited]
  by_cases fixed32 : wireType = kWireFixed32
  · rw [if_pos fixed32, if_pos fixed32]
    exact skipFixed_checked inside 4
  · rw [if_neg fixed32, if_neg fixed32]
    rfl

theorem readVarintField_checked (inside : pos ≤ bytes.data.length) (wireType : UInt32) :
    readVarintField bytes (UInt64.ofNat pos) wireType =
      .ok ((ProtobufWireCodec.readVarintField bytes.data pos wireType).map toWord) := by
  unfold readVarintField ProtobufWireCodec.readVarintField
  split_ifs
  · rfl
  · exact readVarint_checked inside

theorem readLengthDelimitedField_checked (inside : pos ≤ bytes.data.length) (wireType : UInt32) :
    readLengthDelimitedField bytes (UInt64.ofNat pos) wireType =
      .ok ((ProtobufWireCodec.readLengthDelimitedField bytes.data pos wireType).map toWord) := by
  unfold readLengthDelimitedField ProtobufWireCodec.readLengthDelimitedField
  split_ifs
  · rfl
  · rw [readVarint_checked inside, ok_bind]
    cases read : ProtobufWireCodec.readVarint bytes.data pos with
    | none => rfl
    | some found =>
        obtain ⟨size, after⟩ := found
        have insideAfter := readVarint_le inside read
        simp only [Option.map_some, toWord]
        rw [remaining_eq insideAfter, ok_bind]
        by_cases long : size.toNat > bytes.data.length - after
        · rw [if_pos (fits_iff.mpr long), if_pos long]
          rfl
        · rw [if_neg fun large => long (fits_iff.mp large), if_neg long, substr_eq insideAfter, ok_bind,
            advance_eq (by omega)]
          rfl

/-- A field whose read does not fault. -/
theorem map_checked {α : Type} {checked : Except Fault (Option (α × UInt64))} {read : Option (α × ℕ)}
    {sets : α × UInt64 → RpcMessage × UInt64} {sets' : α × ℕ → RpcMessage × ℕ}
    (same : checked = .ok (read.map toWord)) (agrees : ∀ found, sets (toWord found) = toWord (sets' found)) :
    (checked >>= fun read => pure (read.map sets)) = .ok ((read.map sets').map toWord) := by
  rw [same, ok_bind, Option.map_map, Option.map_map]
  show Except.ok _ = Except.ok _
  congr 2
  funext found
  exact agrees found

/-- A number that is none of the fields is skipped. -/
theorem decodeSwitch_of_unknown {pos : UInt64} {message : RpcMessage} {fieldNumber wireType : UInt32}
    (unknown : Field.ofNumber fieldNumber = none) :
    decodeSwitch bytes pos message fieldNumber wireType = (do
      let skipped ← skipField bytes pos wireType
      return skipped.map fun pos => (message, pos)) := by
  unfold Field.ofNumber at unknown
  split_ifs at unknown with id kind service method payload error status
  rw [decodeSwitch, if_neg id, if_neg kind, if_neg service, if_neg method, if_neg payload, if_neg error,
    if_neg status]

/-- The status is checked besides. -/
theorem decodeSwitch_of_status {pos : UInt64} {message : RpcMessage} {wireType : UInt32} :
    decodeSwitch bytes pos message Field.status.number wireType = (do
      match ← readVarintField bytes pos wireType with
      | none => return none
      | some (value, pos) =>
          if value > 0x7fffffff then return none
          else return some ({ message with status := value.toUInt32.toInt32 }, pos)) := rfl

/-- **The `switch` of `decode` does not fault.** -/
theorem decodeSwitch_checked (inside : pos ≤ bytes.data.length) (message : RpcMessage)
    (fieldNumber wireType : UInt32) :
    decodeSwitch bytes (UInt64.ofNat pos) message fieldNumber wireType =
      .ok ((ProtobufWireCodec.decodeSwitch bytes.data pos message fieldNumber wireType).map toWord) := by
  have numeric := readVarintField_checked inside wireType
  have textual := readLengthDelimitedField_checked inside wireType
  cases found : Field.ofNumber fieldNumber with
  | none =>
      rw [decodeSwitch_of_unknown found, ProtobufWireCodec.decodeSwitch_of_unknown found,
        skipField_checked inside,
        ok_bind, Option.map_map, Option.map_map]
      rfl
  | some field =>
      obtain rfl := Field.number_of_ofNumber found
      cases field with
      | id | kind => exact map_checked numeric fun _ => rfl
      | service | method | payload | error => exact map_checked textual fun _ => rfl
      | status =>
          rw [decodeSwitch_of_status, ProtobufWireCodec.decodeSwitch_of_status, numeric, ok_bind]
          cases ProtobufWireCodec.readVarintField bytes.data pos wireType with
          | none => rfl
          | some found =>
              simp only [Option.map_some, toWord]
              split_ifs <;> rfl

/-- **One iteration of `decode` does not fault.** -/
theorem decodeField_checked (inside : pos ≤ bytes.data.length) (message : RpcMessage) :
    decodeField bytes (UInt64.ofNat pos) message =
      .ok ((ProtobufWireCodec.decodeField bytes.data pos message).map toWord) := by
  unfold decodeField ProtobufWireCodec.decodeField
  rw [readVarint_checked inside, ok_bind]
  cases read : ProtobufWireCodec.readVarint bytes.data pos with
  | none => rfl
  | some found => exact decodeSwitch_checked (readVarint_le inside read) message _ _

/-- One iteration moves forward, and not beyond the end of the view. -/
theorem decodeField_bounds (inside : pos ≤ bytes.data.length) {message message' : RpcMessage} {next : ℕ}
    (decoded : ProtobufWireCodec.decodeField bytes.data pos message = some (message', next)) :
    pos < next ∧ next ≤ bytes.data.length := by
  refine ⟨decodeField_advances decoded, ?_⟩
  obtain ⟨record, stands, _, _, rfl⟩ := decodeField_eq_some_iff.mp decoded
  have := stands.length_le
  rw [List.length_drop] at this
  omega

end Readers

/-! ### The loop -/

/-- **The loop of `decode` does not fault** as long as it may take an iteration for each byte left. -/
theorem decodeLoop_checked {fuel pos : ℕ} {message : RpcMessage} (inside : pos ≤ bytes.data.length)
    (enough : bytes.data.length - pos ≤ fuel) :
    decodeLoop bytes fuel (UInt64.ofNat pos) message =
      .ok (ProtobufWireCodec.decodeLoop bytes.data pos message) := by
  induction fuel generalizing pos message with
  | zero =>
      have atEnd : ¬ pos < bytes.data.length := by omega
      rw [decodeLoop, if_neg fun before => atEnd ((word_lt_size_iff inside).mp before),
        decodeLoop_of_end atEnd]
      rfl
  | succ fuel ih =>
      by_cases before : pos < bytes.data.length
      · rw [decodeLoop, if_pos ((word_lt_size_iff inside).mpr before)]
        simp only [decodeField_checked inside, ok_bind]
        cases decoded : ProtobufWireCodec.decodeField bytes.data pos message with
        | none =>
            rw [decodeLoop_of_failed before decoded]
            rfl
        | some found =>
            obtain ⟨forward, insideNext⟩ := decodeField_bounds inside decoded
            have moved : ¬ UInt64.ofNat found.2 ≤ UInt64.ofNat pos := by
              rw [UInt64.le_iff_toNat_le, toNat_word insideNext, toNat_word inside]
              omega
            rw [decodeLoop_of_field before decoded]
            simp only [Option.map_some, toWord]
            rw [if_neg moved]
            exact ih insideNext (by omega)
      · rw [decodeLoop, if_neg fun inView => before ((word_lt_size_iff inside).mp inView),
          decodeLoop_of_end before]
        rfl

end Checked

/-- **No input makes `decode` fault**: on machine words it returns what its model returns, the loop never stands
beyond the end of the view, and each iteration consumes at least one byte and none beyond the end. -/
theorem decode_safe (bytes : ByteString) :
    Checked.decode bytes = .ok (decode bytes.data) ∧
      ∀ pos message, Reaches bytes.data pos message → pos ≤ bytes.data.length ∧
        ∀ message' next, decodeField bytes.data pos message = some (message', next) →
          pos < next ∧ next ≤ bytes.data.length := by
  refine ⟨Checked.decodeLoop_checked (Nat.zero_le _) (Nat.sub_le _ _), ?_⟩
  intro pos message reaches
  have inside : pos ≤ bytes.data.length := by
    induction reaches with
    | start => exact Nat.zero_le _
    | next _ before decoded _ => exact (Checked.decodeField_bounds before.le decoded).2
  exact ⟨inside, fun message' next decoded => Checked.decodeField_bounds inside decoded⟩

end Insist.MiniRpc.ProtobufWireCodec
