import Mathlib.Algebra.Order.Field.Basic
import Mathlib.Data.Rat.Cast.Order
import Mathlib.Tactic.FieldSimp
import Mathlib.Tactic.Ring
import Mathlib.Algebra.Order.Ring.Int
import Vela.Common.Clock
import Vela.Foundation.UnorderedMap

/-! # Audio and video on one timeline

A sender report ties an RTP timestamp of a stream to a wall clock instant. From
it every later timestamp of the stream is mapped to the wall clock. -/

namespace Vela

open Foundation CheckedInt

/-- The report that a stream's timestamps are mapped by. A report without a
clock rate is never kept. -/
structure Anchor where
  rtpTimestamp : BitVec 32
  wall : SystemTime
  clockRateHz : BitVec 32
  rated : clockRateHz ≠ 0

structure AVSync where
  anchors : UnorderedMap (BitVec 32) Anchor := ∅

namespace AVSync

def ntpToSystem (ntp : NtpTimestamp) : Except Overflow SystemTime := do
  let unixSeconds ← checked 64 (ntp.seconds.toNat - kNtpUnixOffset.toInt)
  let scaled ← checked 128 (ntp.fraction.toNat * 1000000000)
  let fracNanos := convert 64 (scaled / 2 ^ 32)
  let whole ← checked 64 (unixSeconds * 1000000000)
  checked 64 (whole + fracNanos)

def onSenderReport (sync : AVSync) (ssrc rtpTimestamp : BitVec 32) (ntp : NtpTimestamp)
    (clockRateHz : BitVec 32) : Except Overflow AVSync :=
  if unrated : clockRateHz = 0 then
    return sync
  else do
    let wall ← ntpToSystem ntp
    return { anchors := sync.anchors.insert ssrc ⟨rtpTimestamp, wall, clockRateHz, unrated⟩ }

def playoutTime (sync : AVSync) (ssrc rtpTimestamp : BitVec 32) :
    Except Overflow (Option SystemTime) :=
  match sync.anchors.lookup ssrc with
  | none => return none
  | some anchor => do
      let deltaTicks := (rtpTimestamp - anchor.rtpTimestamp).toInt
      let scaled ← checked 128 (deltaTicks * 1000000000)
      let deltaNanos := convert 64 (scaled.tdiv anchor.clockRateHz.toNat)
      let wall ← checked 64 (anchor.wall + deltaNanos)
      return some wall

/-- An NTP timestamp maps back to the instant it was made from, or to the
nanosecond before it. -/
theorem ntpToSystem_toNtp {wall : Int} (afterEpoch : 0 ≤ wall)
    (inEra : wall < (2 ^ 32 - 2208988800) * 1000000000) :
    ∃ (ntp : NtpTimestamp) (restored : Int), MediaClock.toNtp wall = .ok ntp ∧
      ntpToSystem ntp = .ok restored ∧ wall - 1 ≤ restored ∧ restored ≤ wall := by
  rcases MediaClock.toNtp_eq afterEpoch inEra with ⟨ntp, made, seconds, fraction⟩
  have secondsFit : Fits 64 (ntp.seconds.toNat - 2208988800) :=
    fits_of_nonneg (by omega) (by omega)
  have scaledFits : Fits 128 (ntp.fraction.toNat * 1000000000) :=
    fits_of_nonneg (by omega) (by omega)
  have nanosFit : Fits 64 (ntp.fraction.toNat * 1000000000 / 2 ^ 32 : Int) :=
    fits_of_nonneg (by omega) (by omega)
  have wholeFits : Fits 64 (((ntp.seconds.toNat : Int) - 2208988800) * 1000000000) :=
    fits_of_nonneg (by omega) (by omega)
  have sumFits : Fits 64 (((ntp.seconds.toNat : Int) - 2208988800) * 1000000000 +
      ntp.fraction.toNat * 1000000000 / 2 ^ 32) :=
    fits_of_nonneg (by omega) (by omega)
  refine ⟨ntp, ((ntp.seconds.toNat : Int) - 2208988800) * 1000000000 +
    ntp.fraction.toNat * 1000000000 / 2 ^ 32, made, ?_, by omega, by omega⟩
  have offset : kNtpUnixOffset.toInt = 2208988800 := rfl
  simp only [ntpToSystem, offset, checked_of_fits secondsFit, ok_bind,
    checked_of_fits scaledFits, convert_of_fits (by decide) nanosFit,
    checked_of_fits wholeFits, checked_of_fits sumFits]

theorem onSenderReport_of_rated {ntp : NtpTimestamp} {clockRateHz : BitVec 32} {wall : Int}
    (rated : clockRateHz ≠ 0) (mapped : ntpToSystem ntp = .ok wall) (sync : AVSync)
    (ssrc rtpTimestamp : BitVec 32) :
    sync.onSenderReport ssrc rtpTimestamp ntp clockRateHz =
      .ok { anchors := sync.anchors.insert ssrc ⟨rtpTimestamp, wall, clockRateHz, rated⟩ } := by
  rw [onSenderReport, dif_neg rated, mapped]
  rfl

/-- A timestamp whose distance from the report fits its signed difference. -/
theorem playoutTime_of_lookup {sync : AVSync} {ssrc : BitVec 32} {anchor : Anchor}
    {counted reported wall : Int} (found : sync.anchors.lookup ssrc = some anchor)
    (rtpReported : anchor.rtpTimestamp = BitVec.ofInt 32 reported) (anchored : anchor.wall = wall)
    (afterEpoch : -1 ≤ wall) (inEra : wall < 2 ^ 32 * 1000000000)
    (fits : Fits 32 (counted - reported)) :
    sync.playoutTime ssrc (BitVec.ofInt 32 counted) = .ok (some (wall +
      ((counted - reported) * 1000000000).tdiv anchor.clockRateHz.toNat)) := by
  have delta := toInt_ofInt_sub (by decide) fits
  have lower : -2 ^ 31 ≤ counted - reported := fits.1
  have upper : counted - reported < 2 ^ 31 := fits.2
  have smaller := Int.natAbs_tdiv_le_natAbs ((counted - reported) * 1000000000)
    anchor.clockRateHz.toNat
  generalize counted - reported = difference at *
  have scaledFits : Fits 128 (difference * 1000000000) := by
    unfold Fits
    omega
  have nanosFit : Fits 64 ((difference * 1000000000).tdiv anchor.clockRateHz.toNat) := by
    unfold Fits
    omega
  have sumFits : Fits 64 (wall +
      (difference * 1000000000).tdiv anchor.clockRateHz.toNat) := by
    unfold Fits
    omega
  simp only [playoutTime, found, rtpReported, anchored, delta, checked_of_fits scaledFits, ok_bind,
    convert_of_fits (by decide : 0 < 64) nanosFit, checked_of_fits sumFits]
  rfl

end AVSync

/-- A stream's clock and the instant that its sender reported, on the sender's
steady clock and on its wall clock, in nanoseconds. -/
structure Timeline where
  ssrc : BitVec 32
  clockRateHz : BitVec 32
  epoch : Int
  report : Int
  wall : Int

namespace Timeline

variable {timeline : Timeline} {sync : AVSync}

def sendReport (timeline : Timeline) (sync : AVSync) : Except Overflow AVSync := do
  let rtpTimestamp ← MediaClock.toRtp timeline.report timeline.epoch timeline.clockRateHz
  let ntp ← MediaClock.toNtp timeline.wall
  sync.onSenderReport timeline.ssrc rtpTimestamp ntp timeline.clockRateHz

def playout (timeline : Timeline) (sync : AVSync) (capture : SteadyTime) :
    Except Overflow (Option SystemTime) := do
  let rtpTimestamp ← MediaClock.toRtp capture timeline.epoch timeline.clockRateHz
  sync.playoutTime timeline.ssrc rtpTimestamp

/-- The wall clock at an instant, by the reported one. -/
def wallAt (timeline : Timeline) (capture : SteadyTime) : Int :=
  timeline.wall + (capture - timeline.report)

/-- One tick and two nanoseconds. -/
def bound (timeline : Timeline) : ℚ := 1000000000 / timeline.clockRateHz.toNat + 2

/-- The instants that the report can map. -/
structure Reaches (timeline : Timeline) (capture : Int) : Prop where
  rated : timeline.clockRateHz ≠ 0
  reported : timeline.epoch ≤ timeline.report
  captured : timeline.epoch ≤ capture
  near : |capture - timeline.report| * timeline.clockRateHz.toNat < (2 ^ 31 - 1) * 1000000000
  afterUnixEpoch : 0 ≤ timeline.wall
  inEra : timeline.wall < (2 ^ 32 - 2208988800) * 1000000000

theorem Reaches.ratePositive {capture : Int} (reaches : timeline.Reaches capture) :
    (0 : Int) < timeline.clockRateHz.toNat := by
  have nonzero : timeline.clockRateHz.toNat ≠ 0 := fun zero =>
    reaches.rated (BitVec.eq_of_toNat_eq zero)
  omega

/-- The time since the stream's epoch fits the clock. -/
structure Running (timeline : Timeline) (capture : Int) : Prop where
  reportFits : Fits 64 (timeline.report - timeline.epoch)
  captureFits : Fits 64 (capture - timeline.epoch)

/-- The report is the one that the stream's timestamps are mapped by. -/
def Reported (timeline : Timeline) (sync : AVSync) : Prop :=
  ∃ (anchor : Anchor) (restored : Int), sync.anchors.lookup timeline.ssrc = some anchor ∧
    anchor.rtpTimestamp =
      BitVec.ofInt 32 (MediaClock.ticksAt timeline.report timeline.epoch timeline.clockRateHz) ∧
    anchor.wall = restored ∧ anchor.clockRateHz = timeline.clockRateHz ∧
    timeline.wall - 1 ≤ restored ∧ restored ≤ timeline.wall

theorem sendReport_ok {capture : Int} (reaches : timeline.Reaches capture)
    (running : timeline.Running capture) (sync : AVSync) :
    ∃ reported, timeline.sendReport sync = .ok reported ∧ timeline.Reported reported ∧
      ∀ other, other ≠ timeline.ssrc →
        reported.anchors.lookup other = sync.anchors.lookup other := by
  rcases AVSync.ntpToSystem_toNtp reaches.afterUnixEpoch reaches.inEra with
    ⟨ntp, restored, made, mapped, atLeast, atMost⟩
  have ticks := MediaClock.toRtp_eq reaches.reported running.reportFits timeline.clockRateHz
  have sent : timeline.sendReport sync = .ok
      { anchors := sync.anchors.insert timeline.ssrc
          ⟨BitVec.ofInt 32 (MediaClock.ticksAt timeline.report timeline.epoch
            timeline.clockRateHz), restored, timeline.clockRateHz, reaches.rated⟩ } := by
    rw [sendReport, ticks, ok_bind, made, ok_bind,
      AVSync.onSenderReport_of_rated reaches.rated mapped]
  refine ⟨_, sent, ⟨_, _, AList.lookup_insert _, rfl, rfl, rfl, atLeast, atMost⟩, ?_⟩
  intro other different
  exact AList.lookup_insert_ne different

theorem reported_congr {later : AVSync}
    (same : later.anchors.lookup timeline.ssrc = sync.anchors.lookup timeline.ssrc)
    (reported : timeline.Reported sync) : timeline.Reported later := by
  rcases reported with ⟨anchor, restored, found, kept⟩
  exact ⟨anchor, restored, same.trans found, kept⟩

/-- The roundings of both tick counts, of the division and of the report. -/
theorem roundings {wall anchored elapsed ticks rate : Int} (positive : 0 < rate)
    (atLeast : wall - 1 ≤ anchored) (atMost : anchored ≤ wall)
    (above : elapsed * rate - 1000000000 < ticks * 1000000000)
    (below : ticks * 1000000000 < elapsed * rate + 1000000000) :
    |(anchored + (ticks * 1000000000).tdiv rate - (wall + elapsed)) * rate| <
      1000000000 + 2 * rate := by
  have divided := tdiv_error positive (ticks * 1000000000)
  have reported : -rate ≤ (anchored - wall) * rate ∧ (anchored - wall) * rate ≤ 0 := by
    constructor <;> nlinarith
  have parts : (anchored + (ticks * 1000000000).tdiv rate - (wall + elapsed)) * rate =
      (anchored - wall) * rate + (ticks * 1000000000).tdiv rate * rate - elapsed * rate := by
    ring
  rw [parts, abs_lt]
  omega

theorem bound_of_scaled {played ideal rate : Int} (positive : 0 < rate)
    (scaled : |(played - ideal) * rate| < 1000000000 + 2 * rate) :
    |(played - ideal : ℚ)| < 1000000000 / rate + 2 := by
  have ratePositive : (0 : ℚ) < rate := Int.cast_pos.mpr positive
  have whole : (1000000000 / rate + 2 : ℚ) = (1000000000 + 2 * rate) / rate := by
    field_simp
  rw [whole, lt_div_iff₀ ratePositive, ← abs_of_pos ratePositive, ← abs_mul,
    abs_of_pos ratePositive]
  exact_mod_cast scaled

theorem playout_ok {capture : Int} (reaches : timeline.Reaches capture)
    (running : timeline.Running capture) (reported : timeline.Reported sync) :
    ∃ played : Int, timeline.playout sync capture = .ok (some played) ∧
      |(played - timeline.wallAt capture : ℚ)| < timeline.bound := by
  rcases reported with
    ⟨anchor, restored, found, rtpReported, anchored, sameRate, atLeast, atMost⟩
  have ticks := MediaClock.toRtp_eq reaches.captured running.captureFits timeline.clockRateHz
  have counted := MediaClock.ticksAt_error timeline.epoch timeline.report capture
    timeline.clockRateHz
  have rate : (0 : Int) < timeline.clockRateHz.toNat := reaches.ratePositive
  have near := reaches.near
  rw [← abs_of_pos rate, ← abs_mul, abs_lt] at near
  have fits : Fits 32 (MediaClock.ticksAt capture timeline.epoch timeline.clockRateHz -
      MediaClock.ticksAt timeline.report timeline.epoch timeline.clockRateHz) := by
    unfold Fits
    omega
  have afterUnixEpoch := reaches.afterUnixEpoch
  have inEra := reaches.inEra
  have played := AVSync.playoutTime_of_lookup found rtpReported anchored (by omega) (by omega) fits
  rw [sameRate] at played
  refine ⟨_, ?_, bound_of_scaled rate (roundings rate atLeast atMost counted.1 counted.2)⟩
  rw [playout, ticks, ok_bind, played]

/-- A reported stream's instants are mapped to the wall clock within a tick and
two nanoseconds, so two reported streams agree on an instant that both capture. -/
theorem shared_timeline (sync : AVSync) :
    (∀ (timeline : Timeline) (capture : Int), timeline.Reaches capture →
      timeline.Running capture →
      ∃ (reported : AVSync) (played : Int), timeline.sendReport sync = .ok reported ∧
        timeline.playout reported capture = .ok (some played) ∧
        |(played - timeline.wallAt capture : ℚ)| < timeline.bound) ∧
    (∀ (audio video : Timeline) (capture : Int), audio.ssrc ≠ video.ssrc →
      audio.Reaches capture → audio.Running capture →
      video.Reaches capture → video.Running capture →
      audio.wallAt capture = video.wallAt capture →
      ∃ (audioReported bothReported : AVSync) (audioPlayed videoPlayed : Int),
        audio.sendReport sync = .ok audioReported ∧
        video.sendReport audioReported = .ok bothReported ∧
        audio.playout bothReported capture = .ok (some audioPlayed) ∧
        video.playout bothReported capture = .ok (some videoPlayed) ∧
        |(audioPlayed - videoPlayed : ℚ)| < audio.bound + video.bound) := by
  constructor
  · intro timeline capture reaches running
    rcases sendReport_ok reaches running sync with ⟨reported, sent, kept, _⟩
    rcases playout_ok reaches running kept with ⟨played, mapped, error⟩
    exact ⟨reported, played, sent, mapped, error⟩
  · intro audio video capture different audioReaches audioRunning videoReaches videoRunning same
    rcases sendReport_ok audioReaches audioRunning sync with
      ⟨audioReported, audioSent, audioKept, _⟩
    rcases sendReport_ok videoReaches videoRunning audioReported with
      ⟨bothReported, videoSent, videoKept, others⟩
    -- the second report is about another stream and leaves the first one's anchor
    have audioStays := reported_congr (others audio.ssrc different) audioKept
    rcases playout_ok audioReaches audioRunning audioStays with
      ⟨audioPlayed, audioMapped, audioError⟩
    rcases playout_ok videoReaches videoRunning videoKept with
      ⟨videoPlayed, videoMapped, videoError⟩
    refine ⟨audioReported, bothReported, audioPlayed, videoPlayed, audioSent, videoSent,
      audioMapped, videoMapped, ?_⟩
    rw [same] at audioError
    rw [abs_sub_comm] at videoError
    exact (abs_sub_le _ _ _).trans_lt (add_lt_add audioError videoError)

/-- Two streams of one call, with their epochs half a second apart. -/
theorem shared_timeline_example :
    ∃ (audioReported bothReported : AVSync) (audioPlayed videoPlayed : Int),
      sendReport ⟨2, 48000, 500000000, 1500000000, 1691011200000000000⟩ {} = .ok audioReported ∧
      sendReport ⟨1, 90000, 1000000000, 2000000000, 1691011200500000000⟩ audioReported =
        .ok bothReported ∧
      playout ⟨2, 48000, 500000000, 1500000000, 1691011200000000000⟩ bothReported 1250000001 =
        .ok (some audioPlayed) ∧
      playout ⟨1, 90000, 1000000000, 2000000000, 1691011200500000000⟩ bothReported 1250000001 =
        .ok (some videoPlayed) ∧
      |(audioPlayed - videoPlayed : ℚ)| <
        bound ⟨2, 48000, 500000000, 1500000000, 1691011200000000000⟩ +
          bound ⟨1, 90000, 1000000000, 2000000000, 1691011200500000000⟩ :=
  (shared_timeline {}).2 ⟨2, 48000, 500000000, 1500000000, 1691011200000000000⟩
    ⟨1, 90000, 1000000000, 2000000000, 1691011200500000000⟩ 1250000001 (by decide)
    ⟨by decide, by decide, by decide, by decide, by decide, by decide⟩
    ⟨by decide, by decide⟩
    ⟨by decide, by decide, by decide, by decide, by decide, by decide⟩
    ⟨by decide, by decide⟩ (by decide)

/-- A report and a capture at the steady clock's last instant, of a stream whose
epoch lies before the clock's zero: the time since the epoch does not fit. -/
theorem elapsed_overflows :
    Fits 64 (-1) ∧ Fits 64 (2 ^ 63 - 1) ∧
      Reaches ⟨1, 1, -1, 2 ^ 63 - 1, 0⟩ (2 ^ 63 - 1) ∧
      MediaClock.toRtp (2 ^ 63 - 1) (-1) 1 = .error .overflow ∧
      sendReport ⟨1, 1, -1, 2 ^ 63 - 1, 0⟩ {} = .error .overflow :=
  ⟨by decide, by decide, ⟨by decide, by decide, by decide, by decide, by decide, by decide⟩,
    rfl, rfl⟩

end Timeline

end Vela
