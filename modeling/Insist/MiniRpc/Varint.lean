/-
**`read_varint` and `write_varint` are base-128 numerals modulo `2 ^ 64`.**

`readVarint_eq` says what the reader computes, in the library's terms: the group of at most ten bytes that
starts at the position, its value modulo `2 ^ 64`, and the position after it. `writeVarint_eq` says that the
writer appends the numeral of its value, at most ten bytes (`length_write_le`). `varint_reader_and_writer` says
both in terms of single bytes and sums; below ten bytes the writer's string is the only one of its length
(`eq_writeVarint_of_length_le`), and at ten bytes the reader discards six bits of the last.
-/
import Insist.MiniRpc.ProtobufWire

namespace Insist.MiniRpc.ProtobufWireCodec

open Insist.Lib

/-! ### The reader -/

theorem toNat_low_bits (byte : UInt8) : (byte &&& 0x7f).toNat = byte.toNat % 128 := by
  have mask : (0x7f : UInt8).toNat = 2 ^ 7 - 1 := rfl
  rw [UInt8.toNat_and, mask, Nat.and_two_pow_sub_one_eq_mod]

theorem unmarked_iff (byte : UInt8) : byte &&& 0x80 = 0 ↔ byte.toNat < 128 := by
  have table : ∀ value : Fin 256, value.val &&& 128 = 0 ↔ value.val < 128 := by decide +kernel
  have entry := table ⟨byte.toNat, byte.toNat_lt⟩
  rw [← entry, ← UInt8.toNat_inj, UInt8.toNat_and]
  rfl

/-- One turn of the reader's loop adds the byte's low bits, shifted, modulo `2 ^ 64`. -/
theorem accumulate (value : UInt64) (byte : UInt8) {shift : ℕ} (below : value.toNat < 2 ^ shift)
    (small : shift ≤ 63) :
    (value ||| ((byte &&& 0x7f).toUInt64 <<< UInt64.ofNat shift)).toNat =
      (value.toNat + 2 ^ shift * (byte.toNat % 128)) % 2 ^ 64 := by
  have shiftMod : (UInt64.ofNat shift).toNat % 64 = shift := by
    rw [UInt64.toNat_ofNat']
    omega
  have word : 2 ^ 64 = 2 ^ shift * 2 ^ (64 - shift) := by
    rw [← pow_add]
    congr 1
    omega
  have shifted : ((byte &&& 0x7f).toUInt64 <<< UInt64.ofNat shift).toNat =
      2 ^ shift * (byte.toNat % 128 % 2 ^ (64 - shift)) := by
    rw [UInt64.toNat_shiftLeft, shiftMod, UInt8.toNat_toUInt64, toNat_low_bits, Nat.shiftLeft_eq,
      Nat.mul_comm, word, Nat.mul_mod_mul_left]
  have fits : value.toNat + 2 ^ shift * (byte.toNat % 128 % 2 ^ (64 - shift)) < 2 ^ 64 := by
    have digit : byte.toNat % 128 % 2 ^ (64 - shift) < 2 ^ (64 - shift) :=
      Nat.mod_lt _ (Nat.two_pow_pos _)
    calc value.toNat + 2 ^ shift * (byte.toNat % 128 % 2 ^ (64 - shift))
        < 2 ^ shift + 2 ^ shift * (byte.toNat % 128 % 2 ^ (64 - shift)) := by omega
      _ = 2 ^ shift * (byte.toNat % 128 % 2 ^ (64 - shift) + 1) := by ring
      _ ≤ 2 ^ shift * 2 ^ (64 - shift) := Nat.mul_le_mul_left _ digit
      _ = 2 ^ 64 := word.symm
  rw [UInt64.toNat_or, shifted, Nat.or_comm, ← Nat.two_pow_add_eq_or_of_lt below, Nat.add_comm]
  conv_rhs => rw [Nat.add_mod, word, Nat.mul_mod_mul_left, ← word]
  rw [Nat.mod_eq_of_lt value.toNat_lt, Nat.mod_eq_of_lt fits]

/-- After a turn the value has seven more bits at most. -/
theorem accumulate_lt (value : UInt64) (byte : UInt8) {shift : ℕ} (below : value.toNat < 2 ^ shift)
    (small : shift ≤ 63) :
    (value ||| ((byte &&& 0x7f).toUInt64 <<< UInt64.ofNat shift)).toNat < 2 ^ (shift + 7) := by
  have digit : byte.toNat % 128 < 128 := Nat.mod_lt _ (by omega)
  rw [accumulate value byte below small]
  calc (value.toNat + 2 ^ shift * (byte.toNat % 128)) % 2 ^ 64
      ≤ value.toNat + 2 ^ shift * (byte.toNat % 128) := Nat.mod_le _ _
    _ < 2 ^ shift + 2 ^ shift * (byte.toNat % 128) := by omega
    _ = 2 ^ shift * (byte.toNat % 128 + 1) := by ring
    _ ≤ 2 ^ shift * 128 := Nat.mul_le_mul_left _ digit
    _ = 2 ^ (shift + 7) := by rw [pow_add]; rfl

/-- **The loop of `read_varint` reads the group at the front of the unread bytes.** -/
theorem readVarintLoop_eq {fuel : ℕ} : ∀ {turn : ℕ} (bytes : List UInt8) (pos : ℕ) {value : UInt64},
    turn + fuel = 10 → (turn ≤ 9 → value.toNat < 2 ^ (7 * turn)) →
    readVarintLoop bytes pos (7 * turn) value =
      (Leb128.split fuel bytes).map fun found =>
        (UInt64.ofNat (value.toNat + 2 ^ (7 * turn) * Leb128.value found.1),
          pos + found.1.length) := by
  induction fuel with
  | zero =>
      intro turn bytes pos value turns _
      cases bytes with
      | nil => rfl
      | cons byte rest =>
          rw [readVarintLoop, if_neg (by omega)]
          rfl
  | succ fuel ih =>
      intro turn bytes pos value turns below
      cases bytes with
      | nil => rfl
      | cons byte rest =>
          have added := accumulate value byte (below (by omega)) (by omega : 7 * turn ≤ 63)
          rw [readVarintLoop, if_pos (by omega)]
          by_cases unmarked : byte.toNat < 128
          · rw [if_pos ((unmarked_iff byte).mpr unmarked)]
            simp only [Leb128.split, unmarked, if_true, Option.map_some, Leb128.value_cons,
              Leb128.value_nil, List.length_singleton, Nat.mul_zero, Nat.add_zero]
            congr 2
            apply UInt64.toNat_inj.mp
            rw [added, UInt64.toNat_ofNat']
          · have step : 7 * turn + 7 = 7 * (turn + 1) := by ring
            rw [if_neg (fun clear => unmarked ((unmarked_iff byte).mp clear)), step]
            rw [ih rest (pos + 1) (by omega) ?_]
            · simp only [Leb128.split, unmarked, if_false, Option.map_map, Function.comp_def,
                Leb128.value_cons, List.length_cons]
              congr 1
              funext found
              congr 1
              · apply UInt64.toNat_inj.mp
                rw [UInt64.toNat_ofNat', UInt64.toNat_ofNat', added, Nat.mod_add_mod]
                congr 1
                rw [← step, pow_add]
                ring
              · omega
            · intro _
              rw [← step]
              exact accumulate_lt value byte (below (by omega)) (by omega)

/-- **`read_varint` reads the group of at most ten bytes at the position**, modulo `2 ^ 64`. -/
theorem readVarint_eq (bytes : List UInt8) (pos : ℕ) :
    readVarint bytes pos = (Leb128.split 10 (bytes.drop pos)).map fun found =>
      (UInt64.ofNat (Leb128.value found.1), pos + found.1.length) := by
  have loop : readVarintLoop (bytes.drop pos) pos (7 * 0) 0 = _ :=
    readVarintLoop_eq (bytes.drop pos) pos (Nat.zero_add 10) (fun _ => by decide)
  simpa [readVarint] using loop

/-! ### The writer -/

theorem toNat_marked (value : UInt64) :
    ((value &&& 0x7f) ||| 0x80).toUInt8 = UInt8.ofNat (value.toNat % 128 + 128) := by
  have mask : (0x7f : UInt64).toNat = 2 ^ 7 - 1 := rfl
  have mark : (0x80 : UInt64).toNat = 2 ^ 7 * 1 := rfl
  have digit : value.toNat % 128 < 2 ^ 7 := Nat.mod_lt _ (by omega)
  apply UInt8.toNat_inj.mp
  rw [UInt64.toNat_toUInt8, UInt64.toNat_or, UInt64.toNat_and, mask, mark,
    Nat.and_two_pow_sub_one_eq_mod, Nat.or_comm, ← Nat.two_pow_add_eq_or_of_lt digit,
    UInt8.toNat_ofNat']
  omega

/-- **`write_varint` appends the base-128 numeral of its value.** -/
theorem writeVarint_eq (out : List UInt8) (value : UInt64) :
    writeVarint out value = out ++ Leb128.write value.toNat := by
  fun_induction writeVarint out value with
  | case1 out value large ih =>
      have large' : 128 ≤ value.toNat := UInt64.le_iff_toNat_le.mp large
      have shifted : (value >>> 7).toNat = value.toNat / 128 := by
        rw [UInt64.toNat_shiftRight, Nat.shiftRight_eq_div_pow]
        rfl
      rw [ih, shifted, toNat_marked, Leb128.write_of_ge large', List.append_assoc,
        List.singleton_append]
  | case2 out value small =>
      have small' : ¬ 128 ≤ value.toNat := fun large => small (UInt64.le_iff_toNat_le.mpr large)
      have byte : value.toUInt8 = UInt8.ofNat value.toNat := by
        apply UInt8.toNat_inj.mp
        rw [UInt64.toNat_toUInt8, UInt8.toNat_ofNat']
      rw [Leb128.write_of_lt (by omega), byte]

/-- A `std::uint64_t` takes at most ten bytes. -/
theorem length_write_le (value : UInt64) : (Leb128.write value.toNat).length ≤ 10 := by
  have bound : value.toNat < 128 ^ (9 + 1) := by
    have := value.toNat_lt
    omega
  exact Leb128.length_write_le bound

/-! ### The reader and the writer -/

/-- Where the first byte with a clear top bit stands. -/
def firstClear (bytes : List UInt8) : ℕ := bytes.findIdx fun byte => byte &&& 0x80 = 0

theorem firstClear_eq (bytes : List UInt8) : firstClear bytes = Leb128.firstUnmarked bytes := by
  unfold firstClear Leb128.firstUnmarked
  congr 1
  funext byte
  exact decide_eq_decide.mpr (unmarked_iff byte)

/-- **`read_varint` succeeds if one of ten bytes has a clear top bit**, and moves behind the first one. -/
theorem readVarint_eq_ite (bytes : List UInt8) (pos : ℕ) :
    readVarint bytes pos =
      if ∃ byte ∈ (bytes.drop pos).take 10, byte &&& 0x80 = 0 then
        some (UInt64.ofNat (∑ i ∈ Finset.range (firstClear (bytes.drop pos) + 1),
          ((bytes.drop pos).getD i 0).toNat % 128 * 128 ^ i), pos + (firstClear (bytes.drop pos) + 1))
      else none := by
  simp only [readVarint_eq, Leb128.split_eq, unmarked_iff, firstClear_eq]
  by_cases ends : ∃ byte ∈ (bytes.drop pos).take 10, byte.toNat < 128
  · have inside : Leb128.firstUnmarked (bytes.drop pos) < (bytes.drop pos).length := by
      obtain ⟨byte, member, unmarked⟩ := ends
      exact List.findIdx_lt_length_of_exists ⟨byte, List.mem_of_mem_take member, decide_eq_true unmarked⟩
    have length : ((bytes.drop pos).take (Leb128.firstUnmarked (bytes.drop pos) + 1)).length =
        Leb128.firstUnmarked (bytes.drop pos) + 1 :=
      List.length_take_of_le inside
    rw [if_pos ends, if_pos ends, Option.map_some, length, Leb128.value_eq_sum, length]
    congr 3
    refine Finset.sum_congr rfl fun i member => ?_
    have below := Finset.mem_range.mp member
    rw [List.getD_eq_getElem?_getD, List.getElem?_take_of_lt below, ← List.getD_eq_getElem?_getD]
  · rw [if_neg ends, if_neg ends]
    rfl

/-- The writer's group is read wherever it stands. -/
theorem readVarint_of_unread {bytes rest : List UInt8} {pos : ℕ} {value : UInt64}
    (unread : bytes.drop pos = Leb128.write value.toNat ++ rest) :
    readVarint bytes pos = some (value, pos + (Leb128.write value.toNat).length) := by
  rw [readVarint_eq, unread, Leb128.split_append (Leb128.write_closed _) (length_write_le value),
    Option.map_some, Leb128.value_write, UInt64.ofNat_toNat]

/-- **What is written is read back**, and nothing else is consumed. -/
theorem readVarint_writeVarint (out rest : List UInt8) (value : UInt64) :
    readVarint (writeVarint out value ++ rest) out.length = some (value, (writeVarint out value).length) := by
  have unread : (out ++ Leb128.write value.toNat ++ rest).drop out.length =
      Leb128.write value.toNat ++ rest := by
    rw [List.append_assoc, List.drop_left]
  rw [writeVarint_eq, List.length_append]
  exact readVarint_of_unread unread

/-- The value that is read is that of a closed group, modulo `2 ^ 64`. -/
theorem group_of_readVarint {bytes : List UInt8} {pos next : ℕ} {value : UInt64}
    (read : readVarint bytes pos = some (value, next)) :
    ∃ group, group <+: bytes.drop pos ∧ Leb128.Closed group ∧ group.length ≤ 10 ∧
      value = UInt64.ofNat (Leb128.value group) ∧ next = pos + group.length := by
  rw [readVarint_eq] at read
  obtain ⟨⟨group, rest⟩, found, same⟩ := Option.map_eq_some_iff.mp read
  obtain ⟨unread, closed, short⟩ := Leb128.split_eq_some found
  cases same
  exact ⟨group, ⟨rest, unread.symm⟩, closed, short, rfl, rfl⟩

/-- **No shorter string is read as the value.** -/
theorem length_writeVarint_le {bytes : List UInt8} {pos next : ℕ} {value : UInt64}
    (read : readVarint bytes pos = some (value, next)) : pos + (writeVarint [] value).length ≤ next := by
  obtain ⟨group, _, closed, _, rfl, rfl⟩ := group_of_readVarint read
  rw [writeVarint_eq, List.nil_append]
  refine Nat.add_le_add_left (Leb128.length_write_le_of_value closed ?_) pos
  rw [UInt64.toNat_ofNat']
  exact Nat.mod_le _ _

/-- Below ten bytes, where no bit is discarded, no other string of its length is read as the value. -/
theorem eq_writeVarint_of_length_le {bytes : List UInt8} {next : ℕ} {value : UInt64}
    (read : readVarint bytes 0 = some (value, next)) (short : bytes.length ≤ (writeVarint [] value).length)
    (small : bytes.length < 10) : bytes = writeVarint [] value := by
  have least := length_writeVarint_le read
  obtain ⟨group, front, closed, _, rfl, rfl⟩ := group_of_readVarint read
  rw [List.drop_zero] at front
  have whole : group = bytes := front.eq_of_length_le (by omega)
  have kept : (UInt64.ofNat (Leb128.value group)).toNat = Leb128.value group := by
    rw [UInt64.toNat_ofNat']
    refine Nat.mod_eq_of_lt ((Leb128.value_lt group).trans_le ?_)
    calc 128 ^ group.length ≤ 128 ^ 9 := Nat.pow_le_pow_right (by decide) (by rw [whole]; omega)
      _ ≤ 2 ^ 64 := by decide
  rw [writeVarint_eq, List.nil_append, kept] at short ⊢
  rw [← whole] at short ⊢
  exact Leb128.eq_write_of_length_le closed short

/-- **The reader and the writer.** `read_varint` succeeds exactly if one of the ten bytes at the position has a
clear top bit; it returns the numeral that ends with the first such byte, modulo `2 ^ 64`, and moves behind it.
What `write_varint` appends is read back whatever follows, and no shorter string is read as the same value. -/
theorem varint_reader_and_writer :
    (∀ (bytes : List UInt8) (pos : ℕ), readVarint bytes pos =
      if ∃ byte ∈ (bytes.drop pos).take 10, byte &&& 0x80 = 0 then
        some (UInt64.ofNat (∑ i ∈ Finset.range (firstClear (bytes.drop pos) + 1),
          ((bytes.drop pos).getD i 0).toNat % 128 * 128 ^ i), pos + (firstClear (bytes.drop pos) + 1))
      else none) ∧
    ∀ value : UInt64,
      (∀ out rest : List UInt8, readVarint (writeVarint out value ++ rest) out.length =
        some (value, (writeVarint out value).length)) ∧
      ∀ (bytes : List UInt8) (next : ℕ), readVarint bytes 0 = some (value, next) →
        (writeVarint [] value).length ≤ next ∧ next ≤ bytes.length := by
  refine ⟨readVarint_eq_ite, fun value => ⟨fun out rest => readVarint_writeVarint out rest value, ?_⟩⟩
  intro bytes next read
  obtain ⟨group, front, _, _, _, same⟩ := group_of_readVarint read
  refine ⟨(Nat.zero_add _).symm.trans_le (length_writeVarint_le read), ?_⟩
  rw [same, Nat.zero_add]
  exact front.length_le

end Insist.MiniRpc.ProtobufWireCodec
