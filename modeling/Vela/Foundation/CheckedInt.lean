import Mathlib.Data.Int.Init
import Mathlib.Tactic.Linarith

/-! # Integers of a fixed width

Signed arithmetic that faults where its result does not fit, conversions that
wrap, and what a truncating division leaves over. -/

namespace Vela.Foundation

/-- A signed operation whose result does not fit. -/
inductive Overflow where
  | overflow
  deriving DecidableEq, Repr

namespace CheckedInt

/-- The value is one of a signed integer with `width` bits. -/
def Fits (width : Nat) (value : Int) : Prop :=
  -2 ^ (width - 1) ≤ value ∧ value < 2 ^ (width - 1)

instance (width : Nat) (value : Int) : Decidable (Fits width value) :=
  inferInstanceAs (Decidable (_ ∧ _))

def checked (width : Nat) (value : Int) : Except Overflow Int :=
  if Fits width value then .ok value else .error .overflow

/-- Conversion to a signed integer with `width` bits, which wraps. -/
def convert (width : Nat) (value : Int) : Int := (BitVec.ofInt width value).toInt

variable {width : Nat} {value : Int}

theorem checked_of_fits (fits : Fits width value) : checked width value = .ok value :=
  if_pos fits

theorem fits_of_nonneg (nonnegative : 0 ≤ value) (bound : value < 2 ^ (width - 1)) :
    Fits width value := by
  have power : (0 : Int) ≤ 2 ^ (width - 1) := Int.pow_nonneg (by decide)
  exact ⟨by omega, bound⟩

theorem convert_of_fits (positive : 0 < width) (fits : Fits width value) :
    convert width value = value :=
  BitVec.toInt_ofInt_eq_self positive fits.1 fits.2

/-- Wrapped numbers keep their difference, as long as it fits. -/
theorem toInt_ofInt_sub (positive : 0 < width) {left right : Int}
    (fits : Fits width (left - right)) :
    (BitVec.ofInt width left - BitVec.ofInt width right).toInt = left - right := by
  have wrapped := convert_of_fits positive fits
  rw [convert, BitVec.toInt_ofInt] at wrapped
  rw [BitVec.toInt_sub, BitVec.toInt_ofInt, BitVec.toInt_ofInt, Int.bmod_sub_bmod,
    Int.sub_bmod_bmod, wrapped]

/-- Wrapping in two steps is wrapping to the narrower width. -/
theorem setWidth_ofInt {narrow wide : Nat} (narrower : narrow ≤ wide) (value : Int) :
    (BitVec.ofInt wide value).setWidth narrow = BitVec.ofInt narrow value := by
  have divides : ((2 ^ narrow : Nat) : Int) ∣ ((2 ^ wide : Nat) : Int) :=
    Int.natCast_dvd_natCast.mpr (Nat.pow_dvd_pow 2 narrower)
  have nonnegative : 0 ≤ value % ((2 ^ wide : Nat) : Int) :=
    Int.emod_nonneg _ (Int.natCast_ne_zero.mpr (Nat.two_pow_pos wide).ne')
  apply BitVec.eq_of_toNat_eq
  rw [BitVec.toNat_setWidth, BitVec.toNat_ofInt, BitVec.toNat_ofInt,
    ← Int.emod_emod_of_dvd value divides, Int.toNat_emod nonnegative (Int.natCast_nonneg _),
    Int.toNat_natCast]

theorem toNat_ofInt_of_bounds (nonnegative : 0 ≤ value) (bound : value < 2 ^ width) :
    ((BitVec.ofInt width value).toNat : Int) = value := by
  have castBound : value < ((2 ^ width : Nat) : Int) := by
    rw [Int.natCast_pow]
    exact bound
  rw [BitVec.toNat_ofInt, Int.emod_eq_of_lt nonnegative castBound, Int.toNat_of_nonneg nonnegative]

/-- A truncating division is off by less than one unit of its divisor. -/
theorem tdiv_error {divisor : Int} (positive : 0 < divisor) (value : Int) :
    value - divisor < value.tdiv divisor * divisor ∧
      value.tdiv divisor * divisor < value + divisor := by
  have whole := Int.tdiv_mul_add_tmod value divisor
  have below := Int.tmod_lt_of_pos value positive
  have above := Int.lt_tmod_of_pos value positive
  omega

end CheckedInt

end Vela.Foundation
