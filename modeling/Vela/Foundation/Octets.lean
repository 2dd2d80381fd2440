import Mathlib.Data.BitVec

/-! # Octets and big-endian words -/

namespace Vela.Foundation

abbrev Byte := BitVec 8

abbrev Bytes := List Byte

namespace Octets

def bigEndian16 (high low : Byte) : BitVec 16 :=
  (high.setWidth 16 <<< 8) ||| low.setWidth 16

def bigEndian32 (first second third fourth : Byte) : BitVec 32 :=
  (first.setWidth 32 <<< 24) ||| (second.setWidth 32 <<< 16) |||
    (third.setWidth 32 <<< 8) ||| fourth.setWidth 32

/-- The low octet of a word, as a masked narrowing conversion. -/
def lowOctet (word : BitVec width) : Byte := (word &&& 0xFF).setWidth 8

theorem toNat_lowOctet (word : BitVec width) (wide : 8 ≤ width) :
    (lowOctet word).toNat = word.toNat % 256 := by
  have large : 2 ^ 8 ≤ 2 ^ width := Nat.pow_le_pow_right (by decide) wide
  have mask : (0xFF : BitVec width).toNat = 2 ^ 8 - 1 := by
    show 255 % 2 ^ width = 255
    exact Nat.mod_eq_of_lt (by omega)
  rw [lowOctet, BitVec.toNat_setWidth, BitVec.toNat_and, mask, Nat.and_two_pow_sub_one_eq_mod]
  omega

private theorem shift_or (high low bits : Nat) (small : low < 2 ^ bits) :
    high <<< bits ||| low = high * 2 ^ bits + low := by
  rw [← Nat.shiftLeft_add_eq_or_of_lt small, Nat.shiftLeft_eq]

private theorem toNat_widen (byte : Byte) (width : Nat) (wide : 8 ≤ width) :
    (byte.setWidth width).toNat = byte.toNat := by
  have large : 2 ^ 8 ≤ 2 ^ width := Nat.pow_le_pow_right (by decide) wide
  have small := byte.isLt
  rw [BitVec.toNat_setWidth, Nat.mod_eq_of_lt (by omega)]

theorem toNat_bigEndian16 (high low : Byte) :
    (bigEndian16 high low).toNat = high.toNat * 256 + low.toNat := by
  have highSmall := high.isLt
  have lowSmall := low.isLt
  rw [bigEndian16, BitVec.toNat_or, BitVec.toNat_shiftLeft, toNat_widen high 16 (by decide),
    toNat_widen low 16 (by decide), Nat.mod_eq_of_lt (by rw [Nat.shiftLeft_eq]; omega),
    shift_or _ _ _ lowSmall]
  rfl

theorem toNat_bigEndian32 (first second third fourth : Byte) :
    (bigEndian32 first second third fourth).toNat =
      first.toNat * 16777216 + second.toNat * 65536 + third.toNat * 256 + fourth.toNat := by
  have firstSmall := first.isLt
  have secondSmall := second.isLt
  have thirdSmall := third.isLt
  have fourthSmall := fourth.isLt
  have shifted : ∀ (byte : Byte) (bits : Nat), bits ≤ 24 →
      (byte.setWidth 32 <<< bits).toNat = byte.toNat * 2 ^ bits := by
    intro byte bits small
    have byteSmall := byte.isLt
    have power : 2 ^ bits ≤ 2 ^ 24 := Nat.pow_le_pow_right (by decide) small
    have product : byte.toNat * 2 ^ bits < 2 ^ 8 * 2 ^ 24 :=
      Nat.mul_lt_mul_of_lt_of_le byteSmall power (Nat.two_pow_pos _)
    rw [BitVec.toNat_shiftLeft, toNat_widen byte 32 (by decide), Nat.shiftLeft_eq,
      Nat.mod_eq_of_lt (by omega)]
  have upper : (first.toNat * 2 ^ 24) ||| (second.toNat * 2 ^ 16) =
      (first.toNat * 256 + second.toNat) * 2 ^ 16 := by
    rw [← Nat.shiftLeft_eq first.toNat 24, shift_or _ _ _ (by omega)]
    omega
  have middle : ((first.toNat * 256 + second.toNat) * 2 ^ 16) ||| (third.toNat * 2 ^ 8) =
      ((first.toNat * 256 + second.toNat) * 256 + third.toNat) * 2 ^ 8 := by
    rw [← Nat.shiftLeft_eq _ 16, shift_or _ _ _ (by omega)]
    omega
  rw [bigEndian32, BitVec.toNat_or, BitVec.toNat_or, BitVec.toNat_or, shifted _ _ (by decide),
    shifted _ _ (by decide), shifted _ _ (by decide), toNat_widen fourth 32 (by decide),
    upper, middle, ← Nat.shiftLeft_eq _ 8, shift_or _ _ _ fourthSmall]
  omega

/-! ## Round trips -/

theorem bigEndian16_lowOctets (word : BitVec 16) :
    bigEndian16 (lowOctet (word >>> 8)) (lowOctet word) = word := by
  have small := word.isLt
  apply BitVec.eq_of_toNat_eq
  rw [toNat_bigEndian16, toNat_lowOctet _ (by decide), toNat_lowOctet _ (by decide),
    BitVec.toNat_ushiftRight, Nat.shiftRight_eq_div_pow]
  omega

theorem lowOctets_bigEndian16 (high low : Byte) :
    lowOctet (bigEndian16 high low >>> 8) = high ∧ lowOctet (bigEndian16 high low) = low := by
  have highSmall := high.isLt
  have lowSmall := low.isLt
  constructor <;> apply BitVec.eq_of_toNat_eq <;>
    simp only [toNat_lowOctet _ (show 8 ≤ 16 by decide), BitVec.toNat_ushiftRight,
      Nat.shiftRight_eq_div_pow, toNat_bigEndian16] <;> omega

theorem bigEndian32_lowOctets (word : BitVec 32) :
    bigEndian32 (lowOctet (word >>> 24)) (lowOctet (word >>> 16)) (lowOctet (word >>> 8))
      (lowOctet word) = word := by
  have small := word.isLt
  apply BitVec.eq_of_toNat_eq
  simp only [toNat_bigEndian32, toNat_lowOctet _ (show 8 ≤ 32 by decide),
    BitVec.toNat_ushiftRight, Nat.shiftRight_eq_div_pow]
  omega

theorem lowOctets_bigEndian32 (first second third fourth : Byte) :
    lowOctet (bigEndian32 first second third fourth >>> 24) = first ∧
      lowOctet (bigEndian32 first second third fourth >>> 16) = second ∧
      lowOctet (bigEndian32 first second third fourth >>> 8) = third ∧
      lowOctet (bigEndian32 first second third fourth) = fourth := by
  have firstSmall := first.isLt
  have secondSmall := second.isLt
  have thirdSmall := third.isLt
  have fourthSmall := fourth.isLt
  refine ⟨?_, ?_, ?_, ?_⟩ <;> apply BitVec.eq_of_toNat_eq <;>
    simp only [toNat_lowOctet _ (show 8 ≤ 32 by decide), BitVec.toNat_ushiftRight,
      Nat.shiftRight_eq_div_pow, toNat_bigEndian32] <;> omega

end Octets

end Vela.Foundation
