/-
**The proto3 serialization of a message with singular scalar fields.**

A message is the list of its numbered fields, in number order. A field at its default is left out; every
other one is a tag, which is the field number times eight plus the wire type, and a payload:

* `uint64` — the base-128 numeral of the value, wire type `0`;
* `int32` and `enum` — the numeral of the value sign-extended to 64 bits (`signExtended`), wire type `0`;
* `string` and `bytes` — the length as a numeral and then the bytes, wire type `2`.
-/
import Insist.Lib.Leb128
import Mathlib.Data.Int.Basic

namespace Insist.Lib.Proto3

/-- The value of a singular scalar field. -/
inductive Value
  | uint64 (value : UInt64)
  | int32 (value : Int32)
  | enum (number : Int32)
  | string (text : List UInt8)
  | bytes (data : List UInt8)
deriving DecidableEq, Repr

/-- The two's complement of an `int32` in 64 bits. -/
def signExtended (value : Int32) : ℕ := (value.toInt % 2 ^ 64).toNat

namespace Value

/-- Whether the value is the default of its type. -/
def isDefault : Value → Bool
  | .uint64 value => value = 0
  | .int32 value | .enum value => value = 0
  | .string data | .bytes data => data = []

/-- The wire type of the value's type. -/
def wireType : Value → ℕ
  | .uint64 _ | .int32 _ | .enum _ => 0
  | .string _ | .bytes _ => 2

/-- What follows the tag. -/
def payload : Value → List UInt8
  | .uint64 value => Leb128.write value.toNat
  | .int32 value | .enum value => Leb128.write (signExtended value)
  | .string data | .bytes data => Leb128.write data.length ++ data

end Value

/-- One field on the wire. -/
def field (number : ℕ) (value : Value) : List UInt8 :=
  if value.isDefault then [] else Leb128.write (number * 8 + value.wireType) ++ value.payload

/-- A message on the wire. -/
def serialize (fields : List (ℕ × Value)) : List UInt8 :=
  fields.flatMap fun entry => field entry.1 entry.2

theorem serialize_cons (number : ℕ) (value : Value) (fields : List (ℕ × Value)) :
    serialize ((number, value) :: fields) = field number value ++ serialize fields := rfl

theorem serialize_singleton (number : ℕ) (value : Value) :
    serialize [(number, value)] = field number value := by
  rw [serialize_cons]
  exact List.append_nil _

/-! ### Sign extension -/

theorem signExtended_lt (value : Int32) : signExtended value < 2 ^ 64 := by
  unfold signExtended
  omega

/-- Only zero is extended to zero. -/
theorem signExtended_eq_zero_iff {value : Int32} : signExtended value = 0 ↔ value = 0 := by
  have lower := value.le_toInt
  have upper := value.toInt_lt
  unfold signExtended
  constructor
  · intro zero
    apply Int32.toInt_inj.mp
    show value.toInt = 0
    omega
  · rintro rfl
    rfl

/-- The extension of a non-negative value is the value. -/
theorem signExtended_of_nonneg {value : Int32} (nonneg : 0 ≤ value.toInt) :
    (signExtended value : ℤ) = value.toInt := by
  have upper := value.toInt_lt
  unfold signExtended
  omega

/-- The extension of a negative value has the upper bits set. -/
theorem signExtended_of_neg {value : Int32} (negative : value.toInt < 0) :
    (signExtended value : ℤ) = value.toInt + 2 ^ 64 := by
  have lower := value.le_toInt
  unfold signExtended
  omega

end Insist.Lib.Proto3
