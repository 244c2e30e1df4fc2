import Chip8.Instruction.Execution
import Chip8.Routine.Register

/-!
Bytes and words as natural numbers. Routines compute in bytes and words that wrap around, the
meaning of an instruction is given in natural numbers, and the two agree operation by operation.
-/

namespace Chip8.Word

open Routine

/-! ### Bytes -/

theorem bit_eq_ofNat (condition : Bool) :
    bit condition = UInt8.ofNat (if condition then 1 else 0) := by
  cases condition <;> rfl

theorem sum_eq_ofNat (left right : UInt8) :
    left + right = UInt8.ofNat ((left.toNat + right.toNat) % 256) := by
  apply UInt8.toNat_inj.mp
  rw [UInt8.toNat_add, UInt8.toNat_ofNat']
  omega

private theorem difference_eq_ofNat (left right : UInt8) :
    left - right = UInt8.ofNat ((left.toNat + 256 - right.toNat) % 256) := by
  apply UInt8.toNat_inj.mp
  have bound := right.toNat_lt
  rw [UInt8.toNat_sub, UInt8.toNat_ofNat']
  omega

private theorem sum_lt_iff (left right : UInt8) :
    left + right < left ↔ 256 ≤ left.toNat + right.toNat := by
  have leftBound := left.toNat_lt
  have rightBound := right.toNat_lt
  rw [UInt8.lt_iff_toNat_lt, UInt8.toNat_add]
  omega

private theorem carry_eq (left right : UInt8) :
    (if left + right < left then 1 else 0) = (left.toNat + right.toNat) / 256 := by
  have leftBound := left.toNat_lt
  have rightBound := right.toNat_lt
  by_cases carries : left + right < left
  · have large := (sum_lt_iff left right).mp carries
    rw [if_pos carries]
    omega
  · have small := mt (sum_lt_iff left right).mpr carries
    rw [if_neg carries]
    omega

private theorem half_eq_ofNat (value : UInt8) : value >>> 1 = UInt8.ofNat (value.toNat / 2) := by
  apply UInt8.toNat_inj.mp
  have bound := value.toNat_lt
  rw [UInt8.toNat_shiftRight, UInt8.toNat_ofNat', Nat.shiftRight_eq_div_pow]
  change value.toNat / 2 = _
  omega

private theorem lowestBit_eq_ofNat (value : UInt8) :
    value &&& 1 = UInt8.ofNat (value.toNat % 2) := by
  apply UInt8.toNat_inj.mp
  rw [UInt8.toNat_and, UInt8.toNat_ofNat']
  change value.toNat &&& 1 = _
  rw [Nat.and_one_is_mod]
  omega

private theorem double_eq_ofNat (value : UInt8) :
    value <<< 1 = UInt8.ofNat (2 * value.toNat % 256) := by
  apply UInt8.toNat_inj.mp
  rw [UInt8.toNat_shiftLeft, UInt8.toNat_ofNat', Nat.shiftLeft_eq]
  change value.toNat * 2 % 256 = _
  omega

private theorem highestBit_eq_ofNat (value : UInt8) :
    value >>> 7 = UInt8.ofNat (value.toNat / 128) := by
  apply UInt8.toNat_inj.mp
  have bound := value.toNat_lt
  rw [UInt8.toNat_shiftRight, UInt8.toNat_ofNat', Nat.shiftRight_eq_div_pow]
  change value.toNat / 128 = _
  omega

/-- The byte operations compute the numbers that the meaning of an operation names. -/
theorem combine_eq (operation : Arithmetic) (left right : UInt8) :
    combine operation left right =
      (UInt8.ofNat (operation.result left.toNat right.toNat),
        (operation.flag? left.toNat right.toNat).map UInt8.ofNat) := by
  cases operation with
  | copy => simp [combine, Arithmetic.result, Arithmetic.flag?]
  | bitOr => simp [combine, Arithmetic.result, Arithmetic.flag?]
  | bitAnd => simp [combine, Arithmetic.result, Arithmetic.flag?]
  | bitXor => simp [combine, Arithmetic.result, Arithmetic.flag?]
  | add =>
      simp only [combine, Arithmetic.result, Arithmetic.flag?, Option.map_some]
      rw [bit_eq_ofNat, ← carry_eq, sum_eq_ofNat]
      simp only [decide_eq_true_eq]
  | subtract =>
      simp only [combine, Arithmetic.result, Arithmetic.flag?, Option.map_some]
      rw [bit_eq_ofNat, difference_eq_ofNat]
      simp only [decide_eq_true_eq, UInt8.le_iff_toNat_le]
  | shiftRight =>
      simp only [combine, Arithmetic.result, Arithmetic.flag?, Option.map_some]
      rw [half_eq_ofNat, lowestBit_eq_ofNat]
  | subtractFrom =>
      simp only [combine, Arithmetic.result, Arithmetic.flag?, Option.map_some]
      rw [bit_eq_ofNat, difference_eq_ofNat]
      simp only [decide_eq_true_eq, UInt8.le_iff_toNat_le]
  | shiftLeft =>
      simp only [combine, Arithmetic.result, Arithmetic.flag?, Option.map_some]
      rw [double_eq_ofNat, highestBit_eq_ofNat]

theorem digits_eq_ofNat (value : UInt8) :
    [value / 100, value % 100 / 10, value % 10] =
      (decimalDigits value.toNat).map UInt8.ofNat := by
  have bound := value.toNat_lt
  simp only [decimalDigits, List.map_cons, List.map_nil, List.cons.injEq, and_true]
  refine ⟨?_, ?_, ?_⟩
  · apply UInt8.toNat_inj.mp
    rw [UInt8.toNat_div, UInt8.toNat_ofNat']
    change value.toNat / 100 = _
    omega
  · apply UInt8.toNat_inj.mp
    rw [UInt8.toNat_div, UInt8.toNat_mod, UInt8.toNat_ofNat']
    change value.toNat % 100 / 10 = _
    omega
  · apply UInt8.toNat_inj.mp
    rw [UInt8.toNat_mod, UInt8.toNat_ofNat']
    change value.toNat % 10 = _
    omega

/-! ### Addresses -/

theorem toNat_ofNat_le {value bound : Nat} (small : value ≤ bound) (fits : bound < 65536) :
    (UInt16.ofNat value).toNat ≤ bound := by
  rw [UInt16.toNat_ofNat']
  omega

theorem offset_eq_ofNat (base : Address) (offset : UInt8) :
    UInt16.ofNat base.val + offset.toUInt16 = UInt16.ofNat (base.val + offset.toNat) := by
  apply UInt16.toNat_inj.mp
  rw [UInt16.toNat_add, UInt16.toNat_ofNat', UInt16.toNat_ofNat', UInt8.toNat_toUInt16]
  omega

theorem advance_eq_ofNat (index : UInt16) (offset : UInt8) :
    (index + offset.toUInt16) &&& 0x0FFF =
      UInt16.ofNat ((index.toNat + offset.toNat) % 4096) := by
  apply UInt16.toNat_inj.mp
  rw [UInt16.toNat_and, UInt16.toNat_add, UInt16.toNat_ofNat', UInt8.toNat_toUInt16]
  change (index.toNat + offset.toNat) % 2 ^ 16 &&& (2 ^ 12 - 1) = _
  rw [Nat.and_two_pow_sub_one_eq_mod]
  omega

theorem glyph_eq_ofNat (value : UInt8) :
    UInt16.ofNat glyphStart + UInt16.ofNat Glyph.height * (value &&& 0xF).toUInt16 =
      UInt16.ofNat (glyphStart + Glyph.height * (value.toNat % 16)) := by
  have lowDigit : (value &&& 0xF).toNat = value.toNat % 16 := by
    rw [UInt8.toNat_and]
    exact Nat.and_two_pow_sub_one_eq_mod value.toNat 4
  apply UInt16.toNat_inj.mp
  rw [UInt16.toNat_add, UInt16.toNat_mul, UInt8.toNat_toUInt16, lowDigit]
  simp only [UInt16.toNat_ofNat', glyphStart, Glyph.height]
  omega

end Chip8.Word
