import Mathlib.Data.Rat.Defs
import Vela.Audio.AudioCapture

/-! # Audio playback

Decoded frames go into a ring of interleaved samples that the output device drains.
When the device falls behind, the oldest samples are dropped; when the ring runs dry,
silence is played. -/

namespace Vela

open Foundation

/-- A frame without samples is none at all, as `makePcm` gives it. -/
def AudioFrame.valid (frame : AudioFrame) : Bool :=
  decide (0 < frame.sampleCount) && decide (0 < frame.format.channels)

/-- Half a second of stereo. -/
def kMaxRing : Nat := 48000 * 2 / 2

structure MacAudioPlayback where
  format : AudioFormat := {}
  playing : Bool := false
  /-- Interleaved samples, the next one to be played first. -/
  ring : List (BitVec 16) := []
  supported : Supported format := by decide

/-- What a render call writes: one buffer a channel, in which a read outside of the ring
shows as no sample. -/
structure Rendered where
  isSilence : Bool
  buffers : List (List (Option Rat))
  deriving DecidableEq, Repr

namespace MacAudioPlayback

def start (playback : MacAudioPlayback) (format : AudioFormat) (deviceUp : Bool) :
    MacAudioPlayback × Status :=
  if playback.playing then (playback, .error .alreadyRunning)
  else if supported : Supported format then
    let playback := { playback with format, ring := [], supported }
    if !deviceUp then (playback, .error .deviceError)
    else ({ playback with playing := true }, .ok ())
  else (playback, .error .invalidArgument)

def enqueue (playback : MacAudioPlayback) : Option AudioFrame → MacAudioPlayback
  | none => playback
  | some frame =>
      if !frame.valid then playback
      else
        let count := frame.sampleCount.toNat * frame.format.channels.toNat
        let kept :=
          if playback.ring.length + count > kMaxRing then
            let overflow := playback.ring.length + count - kMaxRing
            playback.ring.drop (min overflow playback.ring.length)
          else playback.ring
        { playback with ring := kept ++ frame.samples.take count }

/-- A sample as the device takes it, between -1 and 1. -/
def toFloat (sample : BitVec 16) : Rat := sample.toInt / 32768

def render (playback : MacAudioPlayback) (frameCount : BitVec 32) (mNumberBuffers : Nat) :
    MacAudioPlayback × Rendered :=
  let channels := playback.format.channels.toNat
  let want := frameCount.toNat * channels
  let available := min want playback.ring.length
  let framesHave := available / channels
  let buffers := (List.range (min channels mNumberBuffers)).map fun c =>
    (List.range frameCount.toNat).map fun f =>
      if f < framesHave then playback.ring[f * channels + c]?.map toFloat else some 0
  ({ playback with ring := playback.ring.drop (framesHave * channels) },
    { isSilence := framesHave == 0, buffers })

inductive Event where
  | enqueue (frame : AudioFrame)
  | render (frameCount : BitVec 32) (mNumberBuffers : Nat)
  deriving DecidableEq, Repr

def step (playback : MacAudioPlayback) : Event → MacAudioPlayback × Option Rendered
  | .enqueue frame => (playback.enqueue (some frame), none)
  | .render frameCount mNumberBuffers =>
      ((playback.render frameCount mNumberBuffers).1,
        some (playback.render frameCount mNumberBuffers).2)

/-- Playing from a start on. -/
def machine (playback : MacAudioPlayback) (format : AudioFormat) :
    Machine MacAudioPlayback Event (Option Rendered) where
  initial := (playback.start format true).1
  step := step

/-! ## The stream -/

/-- A frame that fits: its samples are all there, of as many channels as are played. -/
structure Playable (format : AudioFormat) (frame : AudioFrame) : Prop where
  valid : frame.valid = true
  channels : frame.format.channels = format.channels
  complete : frame.samples.length = frame.sampleCount.toNat * frame.format.channels.toNat
  short : frame.samples.length ≤ kMaxRing

def Event.Playable (format : AudioFormat) : Event → Prop
  | .enqueue frame => MacAudioPlayback.Playable format frame
  | .render _ _ => True

/-- The samples of an event. -/
def Event.samples : Event → List (BitVec 16)
  | .enqueue frame => frame.samples
  | .render _ _ => []

/-- All samples that were enqueued, the oldest first. -/
def stream (events : List Event) : List (BitVec 16) := events.flatMap Event.samples

/-- How many samples of the stream are done with: played or dropped. -/
def head (playback : MacAudioPlayback) (format : AudioFormat) (events : List Event) : Nat :=
  (stream events).length - ((playback.machine format).run events).ring.length

/-- The ring is an end of the stream and begins with the first channel. -/
structure Segment (format : AudioFormat) (stream ring : List (BitVec 16)) : Prop where
  newest : ring <:+ stream
  bounded : ring.length ≤ kMaxRing
  aligned : format.channels.toNat ∣ stream.length - ring.length
  whole : format.channels.toNat ∣ ring.length

variable {format : AudioFormat} {samples ring : List (BitVec 16)}

theorem channels_cases (supported : Supported format) :
    format.channels.toNat = 1 ∨ format.channels.toNat = 2 := by
  have atLeast := supported.2.1
  have atMost := supported.2.2
  omega

/-- The samples of a playable frame go behind as much of the ring as there is room for. -/
theorem enqueue_playable {playback : MacAudioPlayback} {frame : AudioFrame}
    (playable : Playable format frame) :
    (playback.enqueue (some frame)).ring =
      playback.ring.drop (playback.ring.length + frame.samples.length - kMaxRing) ++
        frame.samples := by
  have short := playable.short
  simp only [enqueue, playable.valid, Bool.not_true, Bool.false_eq_true, if_false,
    ← playable.complete, List.take_length]
  split
  · rw [Nat.min_eq_left (by omega)]
  · rename_i room
    rw [Nat.sub_eq_zero_of_le (Nat.le_of_not_lt room), List.drop_zero]

/-- The limit cuts between two frames. -/
theorem channels_dvd_kMaxRing (supported : Supported format) :
    format.channels.toNat ∣ kMaxRing := by
  rcases channels_cases supported with one | two
  · rw [one]
    exact Nat.one_dvd _
  · rw [two]
    decide

section Segments

variable {old : List (BitVec 16)}

theorem Segment.drop (segment : Segment format old ring) {count : Nat}
    (whole : format.channels.toNat ∣ count) (available : count ≤ ring.length) :
    Segment format old (ring.drop count) := by
  rcases segment with ⟨newest, bounded, aligned, ringWhole⟩
  have shorter := newest.length_le
  refine ⟨(List.drop_suffix _ _).trans newest, ?_, ?_, ?_⟩
  · rw [List.length_drop]
    omega
  · have rest : old.length - (ring.drop count).length = (old.length - ring.length) + count := by
      rw [List.length_drop]
      omega
    rw [rest]
    exact Nat.dvd_add aligned whole
  · rw [List.length_drop]
    exact Nat.dvd_sub ringWhole whole

theorem Segment.append (segment : Segment format old ring)
    (whole : format.channels.toNat ∣ samples.length)
    (room : ring.length + samples.length ≤ kMaxRing) :
    Segment format (old ++ samples) (ring ++ samples) := by
  rcases segment with ⟨⟨front, rfl⟩, _, aligned, ringWhole⟩
  refine ⟨⟨front, by rw [List.append_assoc]⟩, ?_, ?_, ?_⟩
  · rwa [List.length_append]
  · simp only [List.length_append] at aligned ⊢
    rwa [Nat.add_sub_add_right]
  · rw [List.length_append]
    exact Nat.dvd_add ringWhole whole

/-- Making room drops whole frames, as the ring, the samples and the limit are whole
frames. -/
theorem Segment.enqueue (segment : Segment format old ring) (supported : Supported format)
    (short : samples.length ≤ kMaxRing) (whole : format.channels.toNat ∣ samples.length) :
    Segment format (old ++ samples)
      (ring.drop (ring.length + samples.length - kMaxRing) ++ samples) := by
  have trim : format.channels.toNat ∣ ring.length + samples.length - kMaxRing :=
    Nat.dvd_sub (Nat.dvd_add segment.whole whole) (channels_dvd_kMaxRing supported)
  have bounded := segment.bounded
  have trimmed := segment.drop trim (by omega)
  apply trimmed.append whole
  rw [List.length_drop]
  omega

end Segments

/-! ## Runs -/

variable {playback : MacAudioPlayback} {events : List Event}

theorem stream_snoc (past : List Event) (event : Event) :
    stream (past ++ [event]) = stream past ++ event.samples := by
  rw [stream, List.flatMap_append, List.flatMap_singleton, stream]

/-- As many frames as are wanted and there. -/
def framesHave (format : AudioFormat) (ring : List (BitVec 16)) (frameCount : BitVec 32) : Nat :=
  min (frameCount.toNat * format.channels.toNat) ring.length / format.channels.toNat

theorem framesHave_le (format : AudioFormat) (ring : List (BitVec 16)) (frameCount : BitVec 32) :
    framesHave format ring frameCount * format.channels.toNat ≤ ring.length :=
  Nat.le_trans (Nat.div_mul_le_self _ _) (Nat.min_le_right _ _)

theorem render_ring (same : playback.format = format) (frameCount : BitVec 32)
    (mNumberBuffers : Nat) :
    (playback.render frameCount mNumberBuffers).1.ring =
      playback.ring.drop
        (framesHave format playback.ring frameCount * format.channels.toNat) := by
  rw [← same]
  rfl

theorem start_eq (idle : playback.playing = false) (supported : Supported format) :
    (playback.start format true).1 = { format, playing := true, supported } := by
  simp only [start, idle, Bool.false_eq_true, if_false, dif_pos supported, Bool.not_true]

theorem enqueue_format (playback : MacAudioPlayback) (frame : Option AudioFrame) :
    (playback.enqueue frame).format = playback.format := by
  cases frame with
  | none => rfl
  | some frame =>
      rw [enqueue]
      split <;> rfl

theorem format_run (idle : playback.playing = false) (supported : Supported format)
    (events : List Event) : ((playback.machine format).run events).format = format := by
  refine @Machine.invariant _ _ _ (playback.machine format) (fun current => current.format = format)
    ?_ ?_ events
  · rw [machine, start_eq idle supported]
  · intro current event same
    cases event with
    | enqueue frame => exact (enqueue_format current (some frame)).trans same
    | render frameCount mNumberBuffers => exact same

theorem run_enqueue (past : List Event) {frame : AudioFrame} (fits : Playable format frame) :
    ((playback.machine format).run (past ++ [.enqueue frame])).ring =
      ((playback.machine format).run past).ring.drop
          (((playback.machine format).run past).ring.length + frame.samples.length - kMaxRing) ++
        frame.samples := by
  rw [Machine.run_snoc]
  exact enqueue_playable fits

theorem run_render (idle : playback.playing = false) (supported : Supported format)
    (past : List Event) (frameCount : BitVec 32) (mNumberBuffers : Nat) :
    ((playback.machine format).run (past ++ [.render frameCount mNumberBuffers])).ring =
      ((playback.machine format).run past).ring.drop
        (framesHave format ((playback.machine format).run past).ring frameCount *
          format.channels.toNat) := by
  rw [Machine.run_snoc]
  exact render_ring (format_run idle supported past) frameCount mNumberBuffers

theorem segment_run (idle : playback.playing = false) (supported : Supported format)
    (playable : ∀ event ∈ events, event.Playable format) :
    Segment format (stream events) ((playback.machine format).run events).ring := by
  induction events using List.reverseRecOn with
  | nil =>
      have begun : (playback.machine format).initial = (playback.start format true).1 := rfl
      rw [Machine.run_nil, begun, start_eq idle supported]
      exact ⟨List.suffix_refl _, Nat.zero_le _, Nat.dvd_zero _, Nat.dvd_zero _⟩
  | append_singleton past event induction =>
      have before := induction fun other member => playable other (List.mem_append_left _ member)
      have here := playable event (by simp)
      rw [stream_snoc]
      cases event with
      | enqueue frame =>
          have fits : MacAudioPlayback.Playable format frame := here
          have whole : format.channels.toNat ∣ frame.samples.length := by
            rw [fits.complete, fits.channels]
            exact Nat.dvd_mul_left _ _
          rw [run_enqueue past fits]
          exact before.enqueue supported fits.short whole
      | render frameCount mNumberBuffers =>
          rw [run_render idle supported, Event.samples, List.append_nil]
          exact before.drop (Nat.dvd_mul_left _ _) (framesHave_le _ _ _)

theorem Segment.ring_eq {old : List (BitVec 16)} (segment : Segment format old ring) :
    ring = old.drop (old.length - ring.length) := by
  rcases segment.newest with ⟨front, rfl⟩
  rw [List.length_append, Nat.add_sub_cancel, List.drop_left]

/-- What comes next on a channel, and silence when there is nothing. -/
def nextSample (format : AudioFormat) (stream : List (BitVec 16)) (position channel frame : Nat) :
    Rat :=
  match stream[position + frame * format.channels.toNat + channel]? with
  | some sample => toFloat sample
  | none => 0

theorem Segment.rendered {old : List (BitVec 16)} (segment : Segment format old ring)
    (supported : Supported format) {frameCount : BitVec 32} {channel frame : Nat}
    (isChannel : channel < format.channels.toNat) (isFrame : frame < frameCount.toNat) :
    (if frame < framesHave format ring frameCount then
        ring[frame * format.channels.toNat + channel]?.map toFloat
      else some 0) =
      some (nextSample format old (old.length - ring.length) channel frame) := by
  have shorter := segment.newest.length_le
  have whole := segment.whole
  have position : ring[frame * format.channels.toNat + channel]? =
      old[old.length - ring.length + frame * format.channels.toNat + channel]? := by
    conv => lhs; rw [segment.ring_eq]
    rw [List.getElem?_drop, Nat.add_assoc]
  have enough : frame < framesHave format ring frameCount ↔
      frame * format.channels.toNat + channel < ring.length := by
    rw [framesHave]
    rcases channels_cases supported with one | two
    · rw [one] at isChannel whole ⊢
      omega
    · rw [two] at isChannel whole ⊢
      omega
  rw [nextSample, ← position]
  by_cases inside : frame * format.channels.toNat + channel < ring.length
  · rw [if_pos (enough.mpr inside), List.getElem?_eq_getElem inside]
    rfl
  · rw [if_neg (fun below => inside (enough.mp below)),
      List.getElem?_eq_none (Nat.le_of_not_lt inside)]

theorem render_buffers (same : playback.format = format) (supported : Supported format)
    {stream : List (BitVec 16)} (segment : Segment format stream playback.ring)
    (frameCount : BitVec 32) (mNumberBuffers : Nat) :
    (playback.render frameCount mNumberBuffers).2.buffers =
      (List.range (min format.channels.toNat mNumberBuffers)).map fun channel =>
        (List.range frameCount.toNat).map fun frame =>
          some (nextSample format stream (stream.length - playback.ring.length) channel frame) := by
  subst same
  rw [render]
  apply List.map_congr_left
  intro channel isChannel
  apply List.map_congr_left
  intro frame isFrame
  have below := List.mem_range.mp isChannel
  exact segment.rendered supported (by omega) (List.mem_range.mp isFrame)

/-! ## First in, first out -/

/-- The frames of samples that a render call finds. -/
def playedFrames (playback : MacAudioPlayback) (format : AudioFormat) (past : List Event)
    (frameCount : BitVec 32) : Nat :=
  framesHave format ((playback.machine format).run past).ring frameCount

theorem head_render (idle : playback.playing = false) (supported : Supported format)
    {past : List Event} (playable : ∀ event ∈ past, event.Playable format)
    (frameCount : BitVec 32) (mNumberBuffers : Nat) :
    playback.head format (past ++ [.render frameCount mNumberBuffers]) =
      playback.head format past +
        playback.playedFrames format past frameCount * format.channels.toNat := by
  have available := framesHave_le format ((playback.machine format).run past).ring frameCount
  have shorter := (segment_run idle supported playable).newest.length_le
  rw [head, head, playedFrames, run_render idle supported, stream_snoc, Event.samples,
    List.append_nil, List.length_drop]
  omega

theorem head_enqueue (idle : playback.playing = false) (supported : Supported format)
    {past : List Event} (playable : ∀ event ∈ past, event.Playable format) {frame : AudioFrame}
    (fits : Playable format frame) :
    playback.head format (past ++ [.enqueue frame]) =
      max (playback.head format past) ((stream (past ++ [.enqueue frame])).length - kMaxRing) := by
  have segment := segment_run idle supported playable
  have shorter := segment.newest.length_le
  have bounded := segment.bounded
  have short := fits.short
  rw [head, head, run_enqueue past fits, stream_snoc, Event.samples]
  simp only [List.length_append, List.length_drop]
  omega

/-- What is done with stays done with. -/
theorem head_mono (idle : playback.playing = false) (supported : Supported format)
    {past later : List Event} (playable : ∀ event ∈ later, event.Playable format)
    (isPrefix : past <+: later) : playback.head format past ≤ playback.head format later := by
  induction later using List.reverseRecOn with
  | nil => rw [List.prefix_nil.mp isPrefix]
  | append_singleton earlier event induction =>
      rcases List.prefix_concat_iff.mp isPrefix with same | shorter
      · rw [same]
      · have before : ∀ other ∈ earlier, other.Playable format := fun other member =>
          playable other (List.mem_append_left _ member)
        refine Nat.le_trans (induction before shorter) ?_
        cases event with
        | enqueue frame =>
            have fits : MacAudioPlayback.Playable format frame :=
              playable (.enqueue frame) (by simp)
            rw [head_enqueue idle supported before fits]
            exact Nat.le_max_left _ _
        | render frameCount mNumberBuffers =>
            rw [head_render idle supported before]
            exact Nat.le_add_right _ _

/-- The ring is a bounded queue of the samples, of which `head` are done with. -/
structure FirstInFirstOut (playback : MacAudioPlayback) (format : AudioFormat)
    (events : List Event) : Prop where
  segment : ∀ past, past <+: events →
    Segment format (stream past) ((playback.machine format).run past).ring
  rendered : ∀ past frameCount mNumberBuffers,
    past ++ [.render frameCount mNumberBuffers] <+: events →
    ∃ output, (playback.machine format).output ((playback.machine format).run past)
        (.render frameCount mNumberBuffers) = some output ∧
      output.buffers = (List.range (min format.channels.toNat mNumberBuffers)).map fun channel =>
        (List.range frameCount.toNat).map fun frame =>
          some (nextSample format (stream past) (playback.head format past) channel frame)
  once : ∀ past frameCount mNumberBuffers later,
    past ++ [.render frameCount mNumberBuffers] <+: later → later <+: events →
      playback.head format past +
          playback.playedFrames format past frameCount * format.channels.toNat ≤
        playback.head format later
  dropsOldest : ∀ past frame, past ++ [.enqueue frame] <+: events →
    playback.head format (past ++ [.enqueue frame]) =
      max (playback.head format past) ((stream (past ++ [.enqueue frame])).length - kMaxRing)
  dropsNothingElse : ∀ past frameCount mNumberBuffers,
    past ++ [.render frameCount mNumberBuffers] <+: events →
      playback.head format (past ++ [.render frameCount mNumberBuffers]) =
        playback.head format past +
          playback.playedFrames format past frameCount * format.channels.toNat

/-- Whatever comes in when, the channels stay aligned, and every sample is played once
and in order or dropped as one of the oldest. -/
theorem playback_firstInFirstOut (idle : playback.playing = false) (supported : Supported format)
    (playable : ∀ event ∈ events, event.Playable format) :
    FirstInFirstOut playback format events := by
  have earlier : ∀ {past : List Event}, past <+: events → ∀ event ∈ past, event.Playable format :=
    fun isPrefix event member => playable event (isPrefix.subset member)
  have before : ∀ {past : List Event} {event : Event}, past ++ [event] <+: events →
      ∀ other ∈ past, other.Playable format :=
    fun isPrefix => earlier ((List.prefix_append _ _).trans isPrefix)
  refine ⟨?_, ?_, ?_, ?_, ?_⟩
  · exact fun past isPrefix => segment_run idle supported (earlier isPrefix)
  · intro past frameCount mNumberBuffers isPrefix
    exact ⟨_, rfl, render_buffers (format_run idle supported past) supported
      (segment_run idle supported (before isPrefix)) frameCount mNumberBuffers⟩
  · intro past frameCount mNumberBuffers later isEarlier isPrefix
    have after := head_mono idle supported (earlier isPrefix) isEarlier
    rwa [head_render idle supported (before (isEarlier.trans isPrefix))] at after
  · intro past frame isPrefix
    have fits : Playable format frame := earlier isPrefix (.enqueue frame) (by simp)
    exact head_enqueue idle supported (before isPrefix) fits
  · intro past frameCount mNumberBuffers isPrefix
    exact head_render idle supported (before isPrefix) frameCount mNumberBuffers

/-- Half of a stereo frame is played when the next one comes, which fills the ring and
drops the other half. -/
theorem playback_firstInFirstOut_stereo :
    FirstInFirstOut {} ⟨48000, 2⟩
      [.enqueue ⟨⟨48000, 2⟩, [1, 2, 3, 4], 2, 0, 0⟩, .render 1 2,
        .enqueue ⟨⟨48000, 2⟩, List.replicate kMaxRing 5, 24000, 0, 0⟩, .render 480 2] := by
  refine playback_firstInFirstOut rfl (by decide) ?_
  intro event member
  simp only [List.mem_cons, List.not_mem_nil, or_false] at member
  rcases member with rfl | rfl | rfl | rfl
  · exact Playable.mk rfl rfl rfl (by decide)
  · trivial
  · exact Playable.mk rfl rfl List.length_replicate (by rw [List.length_replicate])
  · trivial

end MacAudioPlayback

end Vela
