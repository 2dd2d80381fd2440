import Mathlib.Algebra.Order.Ring.Abs
import Vela.Common.Clock
import Vela.Network.JitterBufferSteps

/-! # Timestamps of captured frames

Pictures captured at least one tick apart get timestamps that the jitter buffer
tells apart and orders as they were captured. -/

namespace Vela.MediaClock

open Foundation CheckedInt SerialNumber

/-- No operation overflows, whatever 64-bit time has elapsed, before the epoch or
after it. -/
theorem toRtp_total {t epoch : Int} (fits : Fits 64 (t - epoch)) (clockRateHz : BitVec 32) :
    ∃ rtp, toRtp t epoch clockRateHz = .ok rtp := by
  have rateBound : (clockRateHz.toNat : Int) ≤ 2 ^ 32 := by
    have bound := clockRateHz.isLt
    omega
  have magnitude : |(t - epoch) * clockRateHz.toNat| ≤ 2 ^ 63 * 2 ^ 32 := by
    rw [abs_mul, Nat.abs_cast]
    exact mul_le_mul (abs_le.mpr ⟨fits.1, Int.le_of_lt fits.2⟩) rateBound
      (Int.natCast_nonneg _) (by decide)
  rcases abs_le.mp magnitude with ⟨lower, upper⟩
  have scaledFits : Fits 128 ((t - epoch) * clockRateHz.toNat) := by
    unfold Fits
    omega
  simp only [toRtp, checked_of_fits fits, ok_bind, checked_of_fits scaledFits]
  exact ⟨_, rfl⟩

/-- Tick counts less than half of the circle apart are ordered by their wrapped
values. -/
theorem tsLessThan_ofInt {earlier later : Int} (before : earlier < later)
    (near : later - earlier < 2 ^ 31) :
    tsLessThan (BitVec.ofInt 32 earlier) (BitVec.ofInt 32 later) = true := by
  have difference : BitVec.ofInt 32 later - BitVec.ofInt 32 earlier =
      BitVec.ofInt 32 (later - earlier) := by
    have whole : later = (later - earlier) + earlier := by omega
    rw [whole, BitVec.ofInt_add, BitVec.add_sub_cancel, ← whole]
  have distance : (forward (BitVec.ofInt 32 earlier) (BitVec.ofInt 32 later) : Int) =
      later - earlier := by
    rw [forward, difference]
    exact toNat_ofInt_of_bounds (by omega) (by omega)
  have halfCircle : half 32 = 2 ^ 31 := rfl
  rw [tsLessThan_eq_precedes, precedes_iff]
  omega

/-- Two captures at least one tick and less than half of the circle apart have
timestamps in their order, however often the timestamp has wrapped. -/
theorem captures_in_order (epoch : Int) (clockRateHz : BitVec 32) :
    (∀ t : Int, Fits 64 (t - epoch) → ∃ rtp, toRtp t epoch clockRateHz = .ok rtp) ∧
      ∀ t₁ t₂ : Int, epoch ≤ t₁ → t₁ < t₂ → Fits 64 (t₂ - epoch) →
        1000000000 ≤ (t₂ - t₁) * clockRateHz.toNat →
        (t₂ - t₁) * clockRateHz.toNat < (2 ^ 31 - 1) * 1000000000 →
        ∃ rtp₁ rtp₂, toRtp t₁ epoch clockRateHz = .ok rtp₁ ∧
          toRtp t₂ epoch clockRateHz = .ok rtp₂ ∧ tsLessThan rtp₁ rtp₂ = true ∧ rtp₁ ≠ rtp₂ := by
  refine ⟨fun t fits => toRtp_total fits clockRateHz, ?_⟩
  intro t₁ t₂ started before fits apart near
  have startedLater : epoch ≤ t₂ := by omega
  have fitsEarlier : Fits 64 (t₁ - epoch) := by
    unfold Fits at fits ⊢
    omega
  rcases ticksAt_error epoch t₁ t₂ clockRateHz with ⟨atLeast, atMost⟩
  have ordered : tsLessThan (BitVec.ofInt 32 (ticksAt t₁ epoch clockRateHz))
      (BitVec.ofInt 32 (ticksAt t₂ epoch clockRateHz)) = true :=
    tsLessThan_ofInt (by omega) (by omega)
  refine ⟨_, _, toRtp_eq started fitsEarlier clockRateHz, toRtp_eq startedLater fits clockRateHz,
    ordered, ?_⟩
  rw [tsLessThan_eq_precedes, precedes_iff] at ordered
  exact forward_pos.mp ordered.1

/-- Two pictures a thirtieth of a second apart, the second one after the first
wrap of the 90 kHz clock. -/
theorem captures_in_order_across_wrap :
    ∃ rtp₁ rtp₂, toRtp 47721858833333 0 90000 = .ok rtp₁ ∧
      toRtp 47721892166666 0 90000 = .ok rtp₂ ∧ tsLessThan rtp₁ rtp₂ = true ∧ rtp₁ ≠ rtp₂ :=
  (captures_in_order 0 90000).2 47721858833333 47721892166666 (by decide) (by decide) (by decide)
    (by decide) (by decide)

end Vela.MediaClock
