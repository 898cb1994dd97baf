/-
**The 4-byte length header** (`include/minirpc/framing.hpp`).

`makeFrame` puts the big-endian body size in front of a body; `tryPopFrame` takes one complete frame
off the front of the receive buffer, or reports that the buffer holds none yet or announces one that
is too large.

* `decodeFrameSize_encodeFrameSize` — the header round trip over all of `std::uint32_t`.
* `tryPopFrame_makeFrame` — a frame of an admissible body comes back whole, whatever follows it.
* `tryPopFrame_ok`, `tryPopFrame_ok_append`, `tryPopFrame_tooLarge_append` — what is popped is exactly a frame
  at the front, and bytes that arrive later never change what has been decided.
-/
import Mathlib.Data.List.Basic
import Mathlib.Tactic.Ring

namespace Insist.MiniRpc

/-- `kMaxFrameSize`. -/
def kMaxFrameSize : UInt32 := 4 * 1024 * 1024

/-- `kFrameHeaderSize`. -/
def kFrameHeaderSize : ℕ := 4

@[simp] theorem toNat_kMaxFrameSize : kMaxFrameSize.toNat = 4194304 := rfl

/-- `encode_frame_size`: the four bytes of the size, most significant first. -/
def encodeFrameSize (size : UInt32) : List UInt8 :=
  [((size >>> 24) &&& 0xff).toUInt8,
   ((size >>> 16) &&& 0xff).toUInt8,
   ((size >>> 8) &&& 0xff).toUInt8,
   (size &&& 0xff).toUInt8]

/-- `decode_frame_size` of the four bytes a header consists of. -/
def decodeFrameSize (byte0 byte1 byte2 byte3 : UInt8) : UInt32 :=
  (byte0.toUInt32 <<< 24) ||| (byte1.toUInt32 <<< 16) ||| (byte2.toUInt32 <<< 8) ||| byte3.toUInt32

/-- `make_frame`. The cast of the payload size to `std::uint32_t` is the source's. -/
def makeFrame (payload : List UInt8) : List UInt8 :=
  encodeFrameSize (UInt32.ofNat payload.length) ++ payload

/-- `FrameReadResult`, with what `try_pop_frame` leaves in its two reference arguments when it
answers `Ok`: the payload and the rest of the buffer. -/
inductive FrameReadResult
  | needMore
  | ok (payload rest : List UInt8)
  | tooLarge
deriving DecidableEq, Repr

/-- `try_pop_frame`. -/
def tryPopFrame (buffer : List UInt8) : FrameReadResult :=
  match buffer with
  | byte0 :: byte1 :: byte2 :: byte3 :: body =>
      let size := decodeFrameSize byte0 byte1 byte2 byte3
      if size > kMaxFrameSize then .tooLarge
      else if buffer.length < kFrameHeaderSize + size.toNat then .needMore
      else .ok (body.take size.toNat) (body.drop size.toNat)
  | _ => .needMore

/-! ### The header -/

/-- A byte moved up by at most three bytes loses nothing. -/
theorem toNat_byte_shiftLeft (byte : UInt8) (shift : UInt32) (small : shift.toNat ≤ 24) :
    (byte.toUInt32 <<< shift).toNat = byte.toNat * 2 ^ shift.toNat := by
  have byteLt := byte.toNat_lt
  have power : 2 ^ shift.toNat ≤ 2 ^ 24 := Nat.pow_le_pow_right (by omega) small
  rw [UInt32.toNat_shiftLeft, UInt8.toNat_toUInt32, Nat.mod_eq_of_lt (by omega : shift.toNat < 32),
    Nat.shiftLeft_eq]
  apply Nat.mod_eq_of_lt
  calc byte.toNat * 2 ^ shift.toNat ≤ 255 * 2 ^ 24 := Nat.mul_le_mul (by omega) power
    _ < 2 ^ 32 := by omega

theorem toNat_decodeFrameSize (byte0 byte1 byte2 byte3 : UInt8) :
    (decodeFrameSize byte0 byte1 byte2 byte3).toNat =
      byte0.toNat * 2 ^ 24 + byte1.toNat * 2 ^ 16 + byte2.toNat * 2 ^ 8 + byte3.toNat := by
  have bound1 := byte1.toNat_lt
  have bound2 := byte2.toNat_lt
  have bound3 := byte3.toNat_lt
  have shift24 := toNat_byte_shiftLeft byte0 24 (by decide)
  have shift16 := toNat_byte_shiftLeft byte1 16 (by decide)
  have shift8 := toNat_byte_shiftLeft byte2 8 (by decide)
  simp only [UInt32.reduceToNat] at shift24 shift16 shift8
  -- the four parts occupy disjoint bits, so each `or` is a sum
  have low : byte2.toNat * 2 ^ 8 ||| byte3.toNat = byte2.toNat * 2 ^ 8 + byte3.toNat := by
    rw [← Nat.shiftLeft_eq]
    exact (Nat.shiftLeft_add_eq_or_of_lt (by omega) _).symm
  have middle : byte1.toNat * 2 ^ 16 ||| (byte2.toNat * 2 ^ 8 + byte3.toNat) =
      byte1.toNat * 2 ^ 16 + (byte2.toNat * 2 ^ 8 + byte3.toNat) := by
    rw [← Nat.shiftLeft_eq byte1.toNat]
    exact (Nat.shiftLeft_add_eq_or_of_lt (by omega) _).symm
  have high : byte0.toNat * 2 ^ 24 ||| (byte1.toNat * 2 ^ 16 + (byte2.toNat * 2 ^ 8 + byte3.toNat)) =
      byte0.toNat * 2 ^ 24 + (byte1.toNat * 2 ^ 16 + (byte2.toNat * 2 ^ 8 + byte3.toNat)) := by
    rw [← Nat.shiftLeft_eq byte0.toNat]
    exact (Nat.shiftLeft_add_eq_or_of_lt (by omega) _).symm
  rw [decodeFrameSize, UInt32.toNat_or, UInt32.toNat_or, UInt32.toNat_or, shift24, shift16, shift8,
    UInt8.toNat_toUInt32, Nat.or_assoc, Nat.or_assoc, low, middle, high]
  omega

theorem toNat_headerByte (size shift : UInt32) :
    ((size >>> shift) &&& 0xff).toUInt8.toNat = size.toNat / 2 ^ (shift.toNat % 32) % 256 := by
  have mask : (0xff : UInt32).toNat = 2 ^ 8 - 1 := rfl
  rw [UInt32.toNat_toUInt8, UInt32.toNat_and, UInt32.toNat_shiftRight, Nat.shiftRight_eq_div_pow,
    mask, Nat.and_two_pow_sub_one_eq_mod]
  omega

theorem toNat_lastHeaderByte (size : UInt32) :
    (size &&& 0xff).toUInt8.toNat = size.toNat % 256 := by
  have mask : (0xff : UInt32).toNat = 2 ^ 8 - 1 := rfl
  rw [UInt32.toNat_toUInt8, UInt32.toNat_and, mask, Nat.and_two_pow_sub_one_eq_mod]
  omega

/-- **The header round trip**, for every `std::uint32_t`. -/
theorem decodeFrameSize_encodeFrameSize (size : UInt32) :
    decodeFrameSize ((size >>> 24) &&& 0xff).toUInt8 ((size >>> 16) &&& 0xff).toUInt8
      ((size >>> 8) &&& 0xff).toUInt8 (size &&& 0xff).toUInt8 = size := by
  apply UInt32.toNat_inj.mp
  rw [toNat_decodeFrameSize, toNat_headerByte, toNat_headerByte, toNat_headerByte,
    toNat_lastHeaderByte]
  simp only [UInt32.reduceToNat, Nat.reduceMod]
  have := size.toNat_lt
  omega

/-- The header of a size that was read is the four bytes it was read from. -/
theorem encodeFrameSize_decodeFrameSize (byte0 byte1 byte2 byte3 : UInt8) :
    encodeFrameSize (decodeFrameSize byte0 byte1 byte2 byte3) = [byte0, byte1, byte2, byte3] := by
  have bound0 := byte0.toNat_lt
  have bound1 := byte1.toNat_lt
  have bound2 := byte2.toNat_lt
  have bound3 := byte3.toNat_lt
  have value := toNat_decodeFrameSize byte0 byte1 byte2 byte3
  have digit (shift : UInt32) (byte : UInt8)
      (same : (decodeFrameSize byte0 byte1 byte2 byte3).toNat / 2 ^ (shift.toNat % 32) % 256 =
        byte.toNat) :
      ((decodeFrameSize byte0 byte1 byte2 byte3 >>> shift) &&& 0xff).toUInt8 = byte := by
    apply UInt8.toNat_inj.mp
    rw [toNat_headerByte, same]
  have last : (decodeFrameSize byte0 byte1 byte2 byte3 &&& 0xff).toUInt8 = byte3 := by
    apply UInt8.toNat_inj.mp
    rw [toNat_lastHeaderByte]
    omega
  rw [encodeFrameSize, digit 24 byte0 (by simp only [UInt32.reduceToNat, Nat.reduceMod]; omega),
    digit 16 byte1 (by simp only [UInt32.reduceToNat, Nat.reduceMod]; omega),
    digit 8 byte2 (by simp only [UInt32.reduceToNat, Nat.reduceMod]; omega), last]

theorem length_encodeFrameSize (size : UInt32) : (encodeFrameSize size).length = kFrameHeaderSize := rfl

@[simp] theorem length_makeFrame (payload : List UInt8) :
    (makeFrame payload).length = kFrameHeaderSize + payload.length := by
  rw [makeFrame, List.length_append, length_encodeFrameSize]

theorem makeFrame_ne_nil (payload : List UInt8) : makeFrame payload ≠ [] := by
  intro empty
  have := congrArg List.length empty
  simp [kFrameHeaderSize] at this

/-! ### Popping a frame -/

/-- **An admissible body's frame is popped whole, whatever follows it.** -/
theorem tryPopFrame_makeFrame {payload : List UInt8} (small : payload.length ≤ kMaxFrameSize.toNat)
    (rest : List UInt8) : tryPopFrame (makeFrame payload ++ rest) = .ok payload rest := by
  have fits : (UInt32.ofNat payload.length).toNat = payload.length := by
    rw [UInt32.toNat_ofNat']
    rw [toNat_kMaxFrameSize] at small
    exact Nat.mod_eq_of_lt (by omega)
  have notLarge : ¬ UInt32.ofNat payload.length > kMaxFrameSize := by
    rw [gt_iff_lt, UInt32.lt_iff_toNat_lt, fits]
    omega
  simp only [makeFrame, encodeFrameSize, List.cons_append, List.nil_append, tryPopFrame,
    decodeFrameSize_encodeFrameSize, fits]
  have complete : ¬ payload.length + rest.length + 1 + 1 + 1 + 1 < kFrameHeaderSize + payload.length := by
    rw [kFrameHeaderSize]
    omega
  simp only [List.length_cons, List.length_append]
  rw [if_neg notLarge, if_neg complete, List.take_left, List.drop_left]

/-- **What is popped is a frame at the front of the buffer.** -/
theorem tryPopFrame_ok {buffer payload rest : List UInt8}
    (popped : tryPopFrame buffer = .ok payload rest) :
    buffer = makeFrame payload ++ rest ∧ payload.length ≤ kMaxFrameSize.toNat := by
  unfold tryPopFrame at popped
  split at popped
  case h_2 => cases popped
  case h_1 byte0 byte1 byte2 byte3 body =>
    simp only at popped
    split_ifs at popped with large short
    cases popped
    have sizeLe : (decodeFrameSize byte0 byte1 byte2 byte3).toNat ≤ kMaxFrameSize.toNat := by
      rw [gt_iff_lt, UInt32.lt_iff_toNat_lt] at large
      omega
    have bodyLong : (decodeFrameSize byte0 byte1 byte2 byte3).toNat ≤ body.length := by
      simp only [List.length_cons, kFrameHeaderSize] at short
      omega
    have bodyLength : (body.take (decodeFrameSize byte0 byte1 byte2 byte3).toNat).length =
        (decodeFrameSize byte0 byte1 byte2 byte3).toNat := by
      rw [List.length_take]
      omega
    refine ⟨?_, by omega⟩
    rw [makeFrame, bodyLength, UInt32.ofNat_toNat, encodeFrameSize_decodeFrameSize]
    simp

/-- A header that announces more than `kMaxFrameSize`. -/
def OversizedHeader (buffer : List UInt8) : Prop :=
  ∃ byte0 byte1 byte2 byte3 body, buffer = byte0 :: byte1 :: byte2 :: byte3 :: body ∧
    kMaxFrameSize < decodeFrameSize byte0 byte1 byte2 byte3

theorem tryPopFrame_tooLarge_iff (buffer : List UInt8) :
    tryPopFrame buffer = .tooLarge ↔ OversizedHeader buffer := by
  constructor
  · intro popped
    unfold tryPopFrame at popped
    split at popped
    case h_2 => cases popped
    case h_1 byte0 byte1 byte2 byte3 body =>
      simp only at popped
      split_ifs at popped with large short
      exact ⟨byte0, byte1, byte2, byte3, body, rfl, large⟩
  · rintro ⟨byte0, byte1, byte2, byte3, body, rfl, large⟩
    simp only [tryPopFrame]
    exact if_pos large

/-- A buffer that needs more is shorter than the largest frame. -/
theorem length_lt_of_needMore {buffer : List UInt8} (popped : tryPopFrame buffer = .needMore) :
    buffer.length < kFrameHeaderSize + kMaxFrameSize.toNat := by
  unfold tryPopFrame at popped
  split at popped
  case h_1 byte0 byte1 byte2 byte3 body =>
    simp only at popped
    split_ifs at popped with large short
    rw [gt_iff_lt, UInt32.lt_iff_toNat_lt] at large
    omega
  case h_2 notFour =>
    by_contra long
    rw [kFrameHeaderSize, toNat_kMaxFrameSize] at long
    match buffer, long with
    | byte0 :: byte1 :: byte2 :: byte3 :: body, _ => exact notFour byte0 byte1 byte2 byte3 body rfl
    | [], long | [_], long | [_, _], long | [_, _, _], long => simp at long

/-! ### Bytes that arrive later -/

theorem tryPopFrame_ok_append {buffer payload rest : List UInt8}
    (popped : tryPopFrame buffer = .ok payload rest) (more : List UInt8) :
    tryPopFrame (buffer ++ more) = .ok payload (rest ++ more) := by
  obtain ⟨rfl, small⟩ := tryPopFrame_ok popped
  rw [List.append_assoc]
  exact tryPopFrame_makeFrame small (rest ++ more)

theorem tryPopFrame_tooLarge_append {buffer : List UInt8}
    (popped : tryPopFrame buffer = .tooLarge) (more : List UInt8) :
    tryPopFrame (buffer ++ more) = .tooLarge := by
  rw [tryPopFrame_tooLarge_iff] at popped ⊢
  obtain ⟨byte0, byte1, byte2, byte3, body, rfl, large⟩ := popped
  exact ⟨byte0, byte1, byte2, byte3, body ++ more, rfl, large⟩

end Insist.MiniRpc
