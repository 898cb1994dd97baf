/-
**`minirpc::RpcMessage`** (`include/minirpc/message.hpp`, `src/message.cpp`).

A `std::string` is a byte list whose length a `std::size_t` can hold (`ByteString`). `Kind` is an
`enum class` over `std::uint32_t`: five values are named, any other `std::uint32_t` is a value too.
-/
import Mathlib.Algebra.Group.Nat.Defs
import Mathlib.Data.List.Basic

namespace Insist.MiniRpc

/-- A `std::string`: its bytes, fewer than `2 ^ 64` of them. -/
structure ByteString where
  /-- The bytes. -/
  data : List UInt8
  size_lt : data.length < 2 ^ 64
deriving DecidableEq, Repr

namespace ByteString

/-- `std::string::size`. -/
def size (text : ByteString) : UInt64 := UInt64.ofNat text.data.length

/-- `std::string::empty`. -/
def empty (text : ByteString) : Bool := text.data.isEmpty

/-- The default-constructed string. -/
def nil : ByteString := ⟨[], by decide⟩

theorem ext_data {first second : ByteString} (same : first.data = second.data) : first = second := by
  cases first
  cases second
  cases same
  rfl

theorem toNat_size (text : ByteString) : text.size.toNat = text.data.length := by
  rw [size, UInt64.toNat_ofNat']
  exact Nat.mod_eq_of_lt text.size_lt

theorem eq_nil_of_empty {text : ByteString} (isEmpty : text.empty = true) : text = nil :=
  ext_data (List.isEmpty_iff.mp isEmpty)

end ByteString

/-- `RpcMessage::Kind`, an enumeration whose values are all of `std::uint32_t`. -/
structure Kind where
  /-- The underlying value. -/
  code : UInt32
deriving DecidableEq, Repr

namespace Kind

/-- `Kind::Unknown`. -/
def unknown : Kind := ⟨0⟩
/-- `Kind::Request`. -/
def request : Kind := ⟨1⟩
/-- `Kind::Response`. -/
def response : Kind := ⟨2⟩
/-- `Kind::Notify`. -/
def notify : Kind := ⟨3⟩
/-- `Kind::Heartbeat`. -/
def heartbeat : Kind := ⟨4⟩

end Kind

/-- `RpcMessage`, with the member initialisers of the header. -/
structure RpcMessage where
  id : UInt64 := 0
  kind : Kind := .unknown
  service : ByteString := .nil
  method : ByteString := .nil
  payload : ByteString := .nil
  status : Int32 := 0
  error : ByteString := .nil
deriving DecidableEq, Repr

end Insist.MiniRpc
