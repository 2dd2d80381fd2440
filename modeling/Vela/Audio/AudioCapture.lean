import Vela.Common.Clock
import Vela.Foundation.Machine

/-! # Audio capture

Converted samples come in pieces of any size and go out as frames of 20 ms. When the
pool has no buffer, the oldest frame is dropped. -/

namespace Vela

open Foundation

structure AudioFormat where
  sampleRateHz : Int := 48000
  channels : Int := 1
  deriving DecidableEq, Repr

structure AudioFrame where
  format : AudioFormat
  samples : List (BitVec 16)
  /-- Samples per channel. -/
  sampleCount : Int
  captureTime : SteadyTime
  rtpTimestamp : BitVec 32
  deriving DecidableEq, Repr

namespace AudioFrame

/-- All but the time of capture. -/
def content (frame : AudioFrame) : AudioFormat × List (BitVec 16) × Int × BitVec 32 :=
  (frame.format, frame.samples, frame.sampleCount, frame.rtpTimestamp)

/-- A frame over a buffer of `capacity` bytes, or none if it does not fit. The samples
are those of whoever had the buffer before. -/
def makePcm (capacity : Nat) (fmt : AudioFormat) (samplesPerChannel : Int)
    (captured : SteadyTime) : Option AudioFrame :=
  let bytes := samplesPerChannel.toNat * fmt.channels.toNat * 2
  if samplesPerChannel ≤ 0 ∨ fmt.channels ≤ 0 ∨ capacity < bytes then none
  else
    some {
      format := fmt
      samples := []
      sampleCount := samplesPerChannel
      captureTime := captured
      rtpTimestamp := 0 }

end AudioFrame

def kFrameMs : Int := 20

def samplesPerFrame (sampleRateHz : Int) : Int := (sampleRateHz * kFrameMs).tdiv 1000

/-- 48 kHz, mono or stereo. -/
def Supported (format : AudioFormat) : Prop :=
  format.sampleRateHz = 48000 ∧ 1 ≤ format.channels ∧ format.channels ≤ 2

instance (format : AudioFormat) : Decidable (Supported format) :=
  inferInstanceAs (Decidable (_ ∧ _))

structure MacAudioCapture where
  format : AudioFormat := {}
  capturing : Bool := false
  /-- The size of the buffers in the pool. -/
  bufferSize : Nat := 0
  accum : List (BitVec 16) := []
  samplesEmitted : BitVec 64 := 0
  /-- How often the pool was asked for a buffer. -/
  acquires : Nat := 0
  supported : Supported format := by decide

/-- What the rest of the system answers when the pool is asked for the n-th time. -/
structure Outside where
  acquire : Nat → Bool
  now : Nat → SteadyTime

namespace MacAudioCapture

/-- The samples of one frame. -/
def need (capture : MacAudioCapture) : Nat :=
  (samplesPerFrame capture.format.sampleRateHz).toNat * capture.format.channels.toNat

theorem need_eq (capture : MacAudioCapture) :
    capture.need = 960 * capture.format.channels.toNat := by
  rw [need, capture.supported.1]
  rfl

theorem need_pos (capture : MacAudioCapture) : 0 < capture.need := by
  have channels := capture.supported.2.1
  rw [need_eq]
  omega

def start (capture : MacAudioCapture) (format : AudioFormat) (hasCallback deviceUp : Bool) :
    MacAudioCapture × Status :=
  if capture.capturing then (capture, .error .alreadyRunning)
  else if supported : Supported format then
    if !hasCallback then (capture, .error .invalidArgument)
    else
      let spf := samplesPerFrame format.sampleRateHz
      let capture := { capture with
        format
        bufferSize := spf.toNat * format.channels.toNat * 2
        accum := []
        samplesEmitted := 0
        acquires := 0
        supported }
      if !deviceUp then (capture, .error .deviceError)
      else ({ capture with capturing := true }, .ok ())
  else (capture, .error .invalidArgument)

/-- The loop of `onConverted`, with the frames that go to the callback. -/
def emitFrames (outside : Outside) (capture : MacAudioCapture) :
    MacAudioCapture × List AudioFrame :=
  let spf := samplesPerFrame capture.format.sampleRateHz
  if capture.need ≤ capture.accum.length then
    let erased := { capture with
      accum := capture.accum.drop capture.need
      acquires := capture.acquires + 1 }
    if !outside.acquire capture.acquires then emitFrames outside erased
    else
      let frame := AudioFrame.makePcm capture.bufferSize capture.format spf
        (outside.now capture.acquires)
      let delivered := frame.map fun frame =>
        { frame with
          samples := capture.accum.take capture.need
          rtpTimestamp := capture.samplesEmitted.setWidth 32 }
      let next := emitFrames outside
        { erased with samplesEmitted := capture.samplesEmitted + BitVec.ofInt 64 spf }
      (next.1, delivered.toList ++ next.2)
  else (capture, [])
termination_by capture.accum.length
decreasing_by
  all_goals
    have someNeeded := capture.need_pos
    simp only [List.length_drop]
    omega

def onConverted (outside : Outside) (capture : MacAudioCapture) (samples : List (BitVec 16)) :
    MacAudioCapture × List AudioFrame :=
  emitFrames outside { capture with accum := capture.accum ++ samples }

/-- Capturing from a start on. -/
def machine (capture : MacAudioCapture) (format : AudioFormat) (outside : Outside) :
    Machine MacAudioCapture (List (BitVec 16)) (List AudioFrame) where
  initial := (capture.start format true true).1
  step := onConverted outside

def delivered (capture : MacAudioCapture) (format : AudioFormat) (outside : Outside)
    (calls : List (List (BitVec 16))) : List AudioFrame :=
  ((capture.machine format outside).outputs calls).flatten

/-! ## The timeline -/

section Blocks

variable {Element : Type} {elements : List Element} {size index : Nat}

/-- The `index`-th of the consecutive blocks of `size` elements. -/
def block (size : Nat) (elements : List Element) (index : Nat) : List Element :=
  (elements.drop (index * size)).take size

/-- What comes later does not change a whole block. -/
theorem block_append (whole : (index + 1) * size ≤ elements.length) (more : List Element) :
    block size (elements ++ more) index = block size elements index := by
  rw [Nat.succ_mul] at whole
  have enough : size ≤ (elements.drop (index * size)).length := by
    rw [List.length_drop]
    omega
  rw [block, List.drop_append_of_le_length (by omega), List.take_append_of_le_length enough, block]

end Blocks

/-- The samples of a frame, over all channels. -/
def frameSize (format : AudioFormat) : Nat := 960 * format.channels.toNat

/-- How many of the first `n` frames got a buffer. -/
def provided (outside : Outside) (n : Nat) : Nat := (List.range n).countP outside.acquire

/-- How many of the first `n` frames were dropped. -/
def dropped (outside : Outside) (n : Nat) : Nat := (List.range n).countP fun k => !outside.acquire k

/-- The `k`-th frame of a stream, with the timestamp of the `clock`-th one. -/
def frameAt (format : AudioFormat) (outside : Outside) (stream : List (BitVec 16))
    (clock : Nat → Nat) (k : Nat) : AudioFrame where
  format := format
  samples := block (frameSize format) stream k
  sampleCount := 960
  captureTime := outside.now k
  rtpTimestamp := BitVec.ofNat 32 (960 * clock k)

/-- The frames of a stream that got a buffer. -/
def kept (format : AudioFormat) (outside : Outside) (stream : List (BitVec 16)) : List Nat :=
  (List.range (stream.length / frameSize format)).filter outside.acquire

variable {format : AudioFormat} {outside : Outside} {stream : List (BitVec 16)}
  {capture : MacAudioCapture} {emitted : List AudioFrame} {n : Nat}

theorem provided_succ (outside : Outside) (n : Nat) :
    provided outside (n + 1) = provided outside n + if outside.acquire n then 1 else 0 := by
  rw [provided, List.range_succ, List.countP_append, List.countP_singleton, provided]

theorem provided_add_dropped (outside : Outside) (n : Nat) :
    provided outside n + dropped outside n = n := by
  have split := @List.length_eq_countP_add_countP _ outside.acquire (List.range n)
  rw [List.length_range] at split
  simp only [provided, dropped, Bool.not_eq_true, Bool.decide_eq_false] at split ⊢
  exact split.symm

/-- The state after part of a stream, with the frames that were delivered. -/
structure Tracked (format : AudioFormat) (outside : Outside) (stream : List (BitVec 16))
    (capture : MacAudioCapture) (emitted : List AudioFrame) : Prop where
  sameFormat : capture.format = format
  bufferSize : capture.bufferSize = frameSize format * 2
  within : capture.acquires * frameSize format ≤ stream.length
  accum : capture.accum = stream.drop (capture.acquires * frameSize format)
  counter : capture.samplesEmitted = BitVec.ofNat 64 (960 * provided outside capture.acquires)
  emitted : emitted = ((List.range capture.acquires).filter outside.acquire).map
    (frameAt format outside stream (provided outside))

theorem Tracked.need (tracked : Tracked format outside stream capture emitted) :
    capture.need = frameSize format := by
  rw [need_eq, tracked.sameFormat, frameSize]

theorem Tracked.append (tracked : Tracked format outside stream capture emitted)
    (samples : List (BitVec 16)) :
    Tracked format outside (stream ++ samples) { capture with accum := capture.accum ++ samples }
      emitted := by
  have within := tracked.within
  refine ⟨tracked.sameFormat, tracked.bufferSize, ?_, ?_, tracked.counter, ?_⟩
  · rw [List.length_append]
    exact Nat.le_add_right_of_le within
  · rw [List.drop_append_of_le_length within, ← tracked.accum]
  · rw [tracked.emitted]
    apply List.map_congr_left
    intro k member
    have earlier : k < capture.acquires := List.mem_range.mp (List.mem_of_mem_filter member)
    have whole : (k + 1) * frameSize format ≤ stream.length :=
      Nat.le_trans (Nat.mul_le_mul_right _ earlier) within
    rw [frameAt, frameAt, block_append whole]

/-- The pool's buffers are large enough. -/
theorem Tracked.makePcm_eq (tracked : Tracked format outside stream capture emitted)
    (captured : SteadyTime) :
    AudioFrame.makePcm capture.bufferSize capture.format
        (samplesPerFrame capture.format.sampleRateHz) captured =
      some { format, samples := [], sampleCount := 960, captureTime := captured,
             rtpTimestamp := 0 } := by
  have mono := capture.supported.2.1
  have spf : samplesPerFrame capture.format.sampleRateHz = 960 := by
    rw [capture.supported.1]
    rfl
  rw [spf, tracked.bufferSize, AudioFrame.makePcm, tracked.sameFormat, if_neg]
  rw [tracked.sameFormat] at mono
  have whole : Int.toNat 960 = 960 := rfl
  rw [frameSize, whole]
  omega

/-- One frame of the accumulated samples is done with. -/
theorem Tracked.erase (tracked : Tracked format outside stream capture emitted)
    (full : frameSize format ≤ capture.accum.length) :
    (capture.acquires + 1) * frameSize format ≤ stream.length ∧
      capture.accum.drop (frameSize format) =
        stream.drop ((capture.acquires + 1) * frameSize format) := by
  have within := tracked.within
  rw [tracked.accum, List.length_drop] at full
  rw [tracked.accum, List.drop_drop, Nat.succ_mul]
  exact ⟨by omega, rfl⟩

theorem Tracked.exhausted (tracked : Tracked format outside stream capture emitted)
    (full : frameSize format ≤ capture.accum.length)
    (none : outside.acquire capture.acquires = false) :
    Tracked format outside stream
      { capture with
        accum := capture.accum.drop (frameSize format)
        acquires := capture.acquires + 1 } emitted := by
  rcases tracked.erase full with ⟨within, accum⟩
  refine ⟨tracked.sameFormat, tracked.bufferSize, within, accum, ?_, ?_⟩
  · rw [provided_succ, none]
    exact tracked.counter
  · rw [tracked.emitted, List.range_succ, List.filter_append, List.filter_singleton, none]
    simp

theorem Tracked.deliver (tracked : Tracked format outside stream capture emitted)
    (full : frameSize format ≤ capture.accum.length)
    (available : outside.acquire capture.acquires = true) :
    Tracked format outside stream
      { capture with
        accum := capture.accum.drop (frameSize format)
        acquires := capture.acquires + 1
        samplesEmitted := capture.samplesEmitted + 960 }
      (emitted ++ [frameAt format outside stream (provided outside) capture.acquires]) := by
  rcases tracked.erase full with ⟨within, accum⟩
  refine ⟨tracked.sameFormat, tracked.bufferSize, within, accum, ?_, ?_⟩
  · rw [provided_succ, available, tracked.counter, if_pos rfl, Nat.mul_succ, BitVec.ofNat_add]
    rfl
  · rw [tracked.emitted, List.range_succ, List.filter_append, List.filter_singleton, available]
    simp

theorem emitFrames_short (short : capture.accum.length < capture.need) :
    capture.emitFrames outside = (capture, []) := by
  rw [emitFrames, if_neg (Nat.not_le_of_lt short)]

theorem Tracked.emitFrames_exhausted (tracked : Tracked format outside stream capture emitted)
    (full : frameSize format ≤ capture.accum.length)
    (none : outside.acquire capture.acquires = false) :
    capture.emitFrames outside = emitFrames outside { capture with
      accum := capture.accum.drop (frameSize format)
      acquires := capture.acquires + 1 } := by
  rw [← tracked.need] at full ⊢
  rw [emitFrames]
  simp only [full, none, Bool.not_false, if_true]

theorem Tracked.emitFrames_available (tracked : Tracked format outside stream capture emitted)
    (full : frameSize format ≤ capture.accum.length)
    (available : outside.acquire capture.acquires = true) :
    capture.emitFrames outside =
      let next := emitFrames outside { capture with
        accum := capture.accum.drop (frameSize format)
        acquires := capture.acquires + 1
        samplesEmitted := capture.samplesEmitted + 960 }
      (next.1, frameAt format outside stream (provided outside) capture.acquires :: next.2) := by
  have made := tracked.makePcm_eq (outside.now capture.acquires)
  have count : BitVec.ofInt 64 (samplesPerFrame capture.format.sampleRateHz) = 960 := by
    rw [capture.supported.1]
    rfl
  have samples : capture.accum.take (frameSize format) =
      block (frameSize format) stream capture.acquires := by
    rw [tracked.accum, block]
  have timestamp : capture.samplesEmitted.setWidth 32 =
      BitVec.ofNat 32 (960 * provided outside capture.acquires) := by
    rw [tracked.counter, BitVec.setWidth_ofNat_of_le (by decide)]
  rw [emitFrames]
  simp only [full, available, Bool.not_true, Bool.false_eq_true, if_true, if_false, made, count,
    samples, timestamp, tracked.need]
  rfl

theorem Tracked.emitFrames (tracked : Tracked format outside stream capture emitted) :
    Tracked format outside stream (capture.emitFrames outside).1
        (emitted ++ (capture.emitFrames outside).2) ∧
      (capture.emitFrames outside).1.accum.length < frameSize format := by
  generalize size : capture.accum.length = length
  induction length using Nat.strongRecOn generalizing capture emitted with
  | ind length induction =>
      have someNeeded := capture.need_pos
      rw [tracked.need] at someNeeded
      by_cases full : frameSize format ≤ capture.accum.length
      · have shorter : (capture.accum.drop (frameSize format)).length < length := by
          rw [List.length_drop]
          omega
        cases available : outside.acquire capture.acquires with
        | false =>
            rw [tracked.emitFrames_exhausted full available]
            exact induction _ shorter (tracked.exhausted full available) rfl
        | true =>
            rw [tracked.emitFrames_available full available, List.append_cons]
            exact induction _ shorter (tracked.deliver full available) rfl
      · have short : capture.accum.length < frameSize format := Nat.lt_of_not_le full
        rw [emitFrames_short (by rwa [tracked.need]), List.append_nil]
        exact ⟨tracked, short⟩

theorem start_eq (idle : capture.capturing = false) (supported : Supported format) :
    capture.start format true true =
      ({ format, capturing := true, bufferSize := frameSize format * 2, supported }, .ok ()) := by
  have size : (samplesPerFrame format.sampleRateHz).toNat * format.channels.toNat =
      frameSize format := by
    rw [supported.1]
    rfl
  simp only [start, idle, Bool.false_eq_true, if_false, dif_pos supported, Bool.not_true, size]

theorem frameSize_pos (supported : Supported format) : 0 < frameSize format := by
  have mono := supported.2.1
  rw [frameSize]
  omega

/-- The samples that have come are the delivered frames, the dropped frames and a rest
shorter than a frame. -/
theorem tracked_run (idle : capture.capturing = false) (supported : Supported format)
    (outside : Outside) (calls : List (List (BitVec 16))) :
    Tracked format outside calls.flatten ((capture.machine format outside).run calls)
        (capture.delivered format outside calls) ∧
      ((capture.machine format outside).run calls).accum.length < frameSize format := by
  induction calls using List.reverseRecOn with
  | nil =>
      have begun : (capture.machine format outside).initial = (capture.start format true true).1 :=
        rfl
      rw [Machine.run_nil, begun, start_eq idle supported]
      refine ⟨⟨rfl, rfl, ?_, ?_, rfl, rfl⟩, frameSize_pos supported⟩
      · simp
      · simp
  | append_singleton calls samples induction =>
      rw [Machine.run_snoc, delivered, Machine.outputs_snoc]
      simp only [List.flatten_append, List.flatten_singleton]
      exact (induction.1.append samples).emitFrames

/-- Which frames are delivered, and how they are stamped, depends on the samples and the
pool only. -/
theorem delivered_eq (idle : capture.capturing = false) (supported : Supported format)
    (outside : Outside) (calls : List (List (BitVec 16))) :
    capture.delivered format outside calls = (kept format outside calls.flatten).map
      (frameAt format outside calls.flatten (provided outside)) := by
  rcases tracked_run idle supported outside calls with ⟨tracked, rest⟩
  have within := tracked.within
  rw [tracked.accum, List.length_drop] at rest
  have frames : calls.flatten.length / frameSize format =
      ((capture.machine format outside).run calls).acquires := by
    apply Nat.div_eq_of_lt_le within
    rw [Nat.succ_mul]
    omega
  rw [tracked.emitted, kept, frames]

/-! ## Timestamps -/

theorem timestamp_eq_iff (outside : Outside) (k : Nat) :
    BitVec.ofNat 32 (960 * provided outside k) = BitVec.ofNat 32 (960 * k) ↔
      2 ^ 26 ∣ dropped outside k := by
  have total := provided_add_dropped outside k
  rw [← BitVec.toNat_inj, BitVec.toNat_ofNat, BitVec.toNat_ofNat]
  omega

/-- The delivered frames are those for which there was a buffer, in their order and none
twice, each with the timestamp of its first sample. -/
structure OnTimeline (capture : MacAudioCapture) (format : AudioFormat) (outside : Outside)
    (calls : List (List (BitVec 16))) : Prop where
  frames : capture.delivered format outside calls =
    (kept format outside calls.flatten).map (frameAt format outside calls.flatten id)
  whole : ∀ k ∈ kept format outside calls.flatten,
    (k + 1) * frameSize format ≤ calls.flatten.length
  once : (kept format outside calls.flatten).Pairwise (· < ·)
  anySplit : (∀ k, outside.acquire k = true) →
    ∀ (later : Outside) (other : List (List (BitVec 16))), (∀ k, later.acquire k = true) →
      other.flatten = calls.flatten →
        (capture.delivered format later other).map AudioFrame.content =
          (capture.delivered format outside calls).map AudioFrame.content

/-- No frame is delivered after one was dropped, up to a whole turn of the timestamps. -/
def Unbroken (format : AudioFormat) (outside : Outside) (calls : List (List (BitVec 16))) : Prop :=
  ∀ k ∈ kept format outside calls.flatten, 2 ^ 26 ∣ dropped outside k

theorem frames_iff (idle : capture.capturing = false) (supported : Supported format)
    (outside : Outside) (calls : List (List (BitVec 16))) :
    capture.delivered format outside calls =
        (kept format outside calls.flatten).map (frameAt format outside calls.flatten id) ↔
      Unbroken format outside calls := by
  rw [delivered_eq idle supported, List.map_inj_left]
  apply forall₂_congr
  intro k _
  rw [← timestamp_eq_iff, frameAt, frameAt]
  simp

theorem mem_kept {k : Nat} :
    k ∈ kept format outside stream ↔
      k < stream.length / frameSize format ∧ outside.acquire k = true := by
  rw [kept, List.mem_filter, List.mem_range]

theorem provided_all (always : ∀ k, outside.acquire k = true) (n : Nat) :
    provided outside n = n := by
  have all : (List.range n).countP outside.acquire = (List.range n).length :=
    List.countP_eq_length.mpr fun k _ => always k
  rw [provided, all, List.length_range]

theorem kept_all (always : ∀ k, outside.acquire k = true) (format : AudioFormat)
    (stream : List (BitVec 16)) :
    kept format outside stream = List.range (stream.length / frameSize format) := by
  rw [kept, List.filter_eq_self]
  exact fun k _ => always k

/-- What is delivered when the pool is never exhausted depends on the samples only. -/
theorem content_delivered (always : ∀ k, outside.acquire k = true)
    (idle : capture.capturing = false) (supported : Supported format)
    (calls : List (List (BitVec 16))) :
    (capture.delivered format outside calls).map AudioFrame.content =
      (List.range (calls.flatten.length / frameSize format)).map fun k =>
        (format, block (frameSize format) calls.flatten k, 960, BitVec.ofNat 32 (960 * k)) := by
  rw [delivered_eq idle supported, kept_all always, List.map_map]
  apply List.map_congr_left
  intro k _
  rw [Function.comp_apply, AudioFrame.content, frameAt, provided_all always]

theorem OnTimeline.unbroken {calls : List (List (BitVec 16))}
    (onTimeline : OnTimeline capture format outside calls) (idle : capture.capturing = false)
    (supported : Supported format) : Unbroken format outside calls :=
  (frames_iff idle supported outside calls).mp onTimeline.frames

theorem Unbroken.onTimeline {calls : List (List (BitVec 16))}
    (unbroken : Unbroken format outside calls) (idle : capture.capturing = false)
    (supported : Supported format) : OnTimeline capture format outside calls where
  frames := (frames_iff idle supported outside calls).mpr unbroken
  whole := by
    intro k member
    exact (Nat.le_div_iff_mul_le (frameSize_pos supported)).mp (mem_kept.mp member).1
  once := List.Pairwise.filter _ List.pairwise_lt_range
  anySplit := by
    intro always later other laterAlways sameStream
    rw [content_delivered always idle supported, content_delivered laterAlways idle supported,
      sameStream]

/-- However the samples come in and whenever the pool is exhausted, the frames keep
the timeline of the capture exactly when none is delivered after one was dropped. -/
theorem capture_onTimeline_iff (idle : capture.capturing = false) (supported : Supported format)
    (outside : Outside) (calls : List (List (BitVec 16))) :
    OnTimeline capture format outside calls ↔ Unbroken format outside calls :=
  ⟨fun onTimeline => onTimeline.unbroken idle supported,
    fun unbroken => unbroken.onTimeline idle supported⟩

/-- Two frames over three calls, with no buffer for the second one. -/
theorem last_dropped_onTimeline :
    OnTimeline {} {} ⟨fun k => k != 1, fun k => k⟩
      [List.replicate 1000 1, List.replicate 500 2, List.replicate 420 3] := by
  have unbroken : Unbroken {} ⟨fun k => k != 1, fun k => k⟩
      [List.replicate 1000 1, List.replicate 500 2, List.replicate 420 3] := by
    intro k member
    rcases mem_kept.mp member with ⟨within, available⟩
    have notSecond : k ≠ 1 := by simpa using available
    have two : [List.replicate 1000 (1 : BitVec 16), List.replicate 500 2,
        List.replicate 420 3].flatten.length / frameSize {} = 2 := by
      simp only [List.flatten_cons, List.flatten_nil, List.length_append, List.length_replicate,
        List.length_nil]
      decide
    have first : k = 0 := by omega
    rw [first]
    exact Nat.dvd_zero _
  exact (capture_onTimeline_iff rfl (by decide) _ _).mpr unbroken

/-- The sixteen buffers are out when the seventeenth frame comes, and one is back for
the next: it gets the timestamp of the dropped one. -/
theorem late_after_drop :
    ¬OnTimeline {} {} ⟨fun k => k != 16, fun k => k⟩
      (List.replicate 18 (List.replicate 960 0)) := by
  intro onTimeline
  have unbroken := onTimeline.unbroken rfl (by decide)
  have member : 17 ∈ kept {} ⟨fun k => k != 16, fun k => k⟩
      (List.replicate 18 (List.replicate 960 (0 : BitVec 16))).flatten := by
    rw [mem_kept, List.flatten_replicate_replicate, List.length_replicate]
    decide
  have divides := unbroken 17 member
  have one : dropped ⟨fun k => k != 16, fun k => k⟩ 17 = 1 := by decide
  rw [one] at divides
  omega

end MacAudioCapture

end Vela
