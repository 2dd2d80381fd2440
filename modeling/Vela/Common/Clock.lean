import Vela.Common.Types
import Vela.Foundation.CheckedInt

/-! # Media clocks

From instants of the steady clock to RTP timestamps, and from the wall clock to
NTP timestamps. Both clocks count nanoseconds in 64 bits. -/

namespace Vela

open Foundation CheckedInt

/-- Instants of the wall clock, in nanoseconds from its epoch. -/
abbrev SystemTime := Int

structure NtpTimestamp where
  seconds : BitVec 32 := 0
  fraction : BitVec 32 := 0
  deriving DecidableEq, Repr

/-- Seconds between the NTP epoch and the Unix epoch. -/
def kNtpUnixOffset : BitVec 64 := 2208988800

namespace MediaClock

def toRtp (t epoch : SteadyTime) (clockRateHz : BitVec 32) : Except Overflow (BitVec 32) := do
  let elapsed ← checked 64 (t - epoch)
  let scaled ← checked 128 (elapsed * clockRateHz.toNat)
  let ticks := scaled.tdiv 1000000000
  return (BitVec.ofInt 64 ticks).setWidth 32

def toNtp (wall : SystemTime) : Except Overflow NtpTimestamp := do
  let secs := wall.tdiv 1000000000
  let whole ← checked 64 (secs * 1000000000)
  let frac ← checked 64 (wall - whole)
  let shifted ← checked 128 (frac * 2 ^ 32)
  return { seconds := (BitVec.ofInt 64 secs + kNtpUnixOffset).setWidth 32
           fraction := BitVec.ofInt 32 (shifted.tdiv 1000000000) }

/-- The ticks of a stream's clock that have passed at an instant. -/
def ticksAt (t epoch : SteadyTime) (clockRateHz : BitVec 32) : Int :=
  (t - epoch) * clockRateHz.toNat / 1000000000

theorem toRtp_eq {t epoch : SteadyTime} (started : epoch ≤ t) (fits : Fits 64 (t - epoch))
    (clockRateHz : BitVec 32) :
    toRtp t epoch clockRateHz = .ok (BitVec.ofInt 32 (ticksAt t epoch clockRateHz)) := by
  have elapsed : 0 ≤ t - epoch := Int.sub_nonneg_of_le started
  have rateBound : (clockRateHz.toNat : Int) ≤ 2 ^ 32 := by
    have bound := clockRateHz.isLt
    omega
  have scaledNonneg : 0 ≤ (t - epoch) * clockRateHz.toNat :=
    Int.mul_nonneg elapsed (Int.natCast_nonneg _)
  have scaledBound : (t - epoch) * clockRateHz.toNat ≤ 2 ^ 63 * 2 ^ 32 :=
    Int.mul_le_mul (Int.le_of_lt fits.2) rateBound (Int.natCast_nonneg _) (by decide)
  have scaledFits : Fits 128 ((t - epoch) * clockRateHz.toNat) :=
    fits_of_nonneg scaledNonneg (Int.lt_of_le_of_lt scaledBound (by decide))
  simp only [toRtp, checked_of_fits fits, ok_bind, checked_of_fits scaledFits,
    setWidth_ofInt (by decide : 32 ≤ 64), Int.tdiv_eq_ediv_of_nonneg scaledNonneg]
  rfl

/-- Counting both instants from the epoch is off by less than one tick. -/
theorem ticksAt_error (epoch report capture : Int) (clockRateHz : BitVec 32) :
    (capture - report) * clockRateHz.toNat - 1000000000 <
        (ticksAt capture epoch clockRateHz - ticksAt report epoch clockRateHz) * 1000000000 ∧
      (ticksAt capture epoch clockRateHz - ticksAt report epoch clockRateHz) * 1000000000 <
        (capture - report) * clockRateHz.toNat + 1000000000 := by
  have spread : (capture - report) * clockRateHz.toNat =
      (capture - epoch) * clockRateHz.toNat - (report - epoch) * clockRateHz.toNat := by
    rw [← Int.sub_mul, sub_sub_sub_cancel_right]
  have captured := Int.mul_ediv_add_emod ((capture - epoch) * clockRateHz.toNat) 1000000000
  have reported := Int.mul_ediv_add_emod ((report - epoch) * clockRateHz.toNat) 1000000000
  unfold ticksAt
  rw [spread]
  omega

/-- The parts of the timestamp of an instant between the epoch of the Unix clock
and the end of the NTP era. -/
theorem toNtp_eq {wall : Int} (afterEpoch : 0 ≤ wall)
    (inEra : wall < (2 ^ 32 - 2208988800) * 1000000000) :
    ∃ ntp, toNtp wall = .ok ntp ∧
      (ntp.seconds.toNat : Int) = wall / 1000000000 + 2208988800 ∧
      (ntp.fraction.toNat : Int) = wall % 1000000000 * 2 ^ 32 / 1000000000 := by
  have wholeFits : Fits 64 (wall / 1000000000 * 1000000000) :=
    fits_of_nonneg (by omega) (by omega)
  have fracEq : wall - wall / 1000000000 * 1000000000 = wall % 1000000000 := by
    omega
  have fracFits : Fits 64 (wall % 1000000000) :=
    fits_of_nonneg (by omega) (by omega)
  have shiftedNonneg : 0 ≤ wall % 1000000000 * 2 ^ 32 := by
    omega
  have shiftedFits : Fits 128 (wall % 1000000000 * 2 ^ 32) :=
    fits_of_nonneg shiftedNonneg (by omega)
  simp only [toNtp, Int.tdiv_eq_ediv_of_nonneg afterEpoch, checked_of_fits wholeFits, ok_bind,
    fracEq, checked_of_fits fracFits, checked_of_fits shiftedFits,
    Int.tdiv_eq_ediv_of_nonneg shiftedNonneg]
  refine ⟨_, rfl, ?_, ?_⟩
  · have offset : kNtpUnixOffset = BitVec.ofInt 64 2208988800 := rfl
    rw [offset, ← BitVec.ofInt_add, setWidth_ofInt (by decide)]
    exact toNat_ofInt_of_bounds (by omega) (by omega)
  · exact toNat_ofInt_of_bounds (by omega) (by omega)

end MediaClock

end Vela
