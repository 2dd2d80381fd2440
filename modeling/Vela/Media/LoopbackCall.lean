import Vela.Media.GroupCall
import Vela.Media.ReceivePipeline
import Vela.Network.AudioPlayout

/-! # A loopback call

The sink of a send pipeline is the push of a receive pipeline, with or without sound.
Packets may still be lost, reordered and repeated on the way: the video is played out
whole and in order while it is in time, and of the sound exactly what was not
overtaken. -/

namespace Vela

open Foundation SerialNumber

/-! ## Sound that a handler sends -/

/-- Only Opus frames that are not empty can be packetized as sound. -/
theorem RTPHandler.isOpus_of_packetizeAll {handler : RTPHandler} {frames : List EncodedFrame}
    {sent : List (List RtpPacket)} (packetized : handler.packetizeAll frames = .ok sent)
    (audio : ∀ frame ∈ frames, frame.kind = .audio) : ∀ frame ∈ frames, IsOpus frame := by
  induction frames generalizing handler sent with
  | nil =>
      intro frame member
      cases member
  | cons first rest induction =>
      have isAudio := audio first List.mem_cons_self
      rw [packetizeAll] at packetized
      rcases outcome : handler.packetize first with ⟨after, fault | packets⟩
      · rw [outcome] at packetized
        cases packetized
      · rw [outcome] at packetized
        rcases bind_eq_ok.mp packetized with ⟨later, packetizedLater, _⟩
        have isOpus : IsOpus first := by
          rw [packetize, isAudio] at outcome
          split at outcome
          · cases outcome
          · rename_i filled
            dsimp only at outcome
            split at outcome
            · cases outcome
            · rename_i codec
              refine ⟨isAudio, not_not.mp codec, fun empty => filled ?_⟩
              rw [empty]
              rfl
        intro frame member
        rcases List.mem_cons.mp member with isFirst | inRest
        · rw [isFirst]
          exact isOpus
        · exact induction packetizedLater
            (fun other inRest => audio other (List.mem_cons_of_mem _ inRest)) frame inRest

/-- Timestamps of which each is less than half a circle after all before it. -/
def Advancing (timestamps : List (BitVec 32)) : Prop :=
  timestamps.Pairwise fun earlier later =>
    1 ≤ forward earlier later ∧ forward earlier later < 2 ^ 31

theorem Advancing.isChain {timestamps : List (BitVec 32)} (advancing : Advancing timestamps) :
    timestamps.IsChain fun earlier later => tsLessThan earlier later = true := by
  apply List.Pairwise.isChain
  apply advancing.imp
  intro earlier later apart
  rw [tsLessThan_eq_precedes, precedes_iff]
  exact apart

theorem Advancing.fitHalf {timestamps : List (BitVec 32)} (advancing : Advancing timestamps) :
    FitHalf timestamps := by
  cases timestamps with
  | nil => exact ⟨0, fun _ member => nomatch member⟩
  | cons first rest =>
      refine ⟨first, fun timestamp member => ?_⟩
      rcases List.mem_cons.mp member with isFirst | inRest
      · rw [isFirst, InHalf, forward_self]
        decide
      · exact (List.rel_of_pairwise_cons advancing inRest).2

namespace SendPipeline

variable {video : VideoLibrary} {audio : AudioLibrary} {pipeline : SendPipeline video audio}
  {captures : List Event}

/-- Every packet at the sink is of a frame that was sent. -/
theorem mem_sunk {packet : RtpPacket}
    (member : packet ∈ ((machine pipeline).transcript captures).flatMap fun call => call.2.sunk) :
    ∃ kind, packet ∈
      ((sent kind ((machine pipeline).transcript captures)).map Prod.snd).flatten := by
  rcases List.mem_flatMap.mp member with ⟨call, made, isSunk⟩
  rcases Machine.mem_transcript made with ⟨past, _, output⟩
  rcases sunk_step ((machine pipeline).run past) call.1 with
    silent | ⟨kind, encoded, isPush, ok, seen⟩
  · have silent : call.2.sunk = [] := by
      rw [output]
      exact silent
    rw [silent] at isSunk
    cases isSunk
  · have pushes := @sent_push kind call.1 call.2 encoded isPush (by rw [output]; exact ok)
      (by rw [output]; exact seen)
    refine ⟨kind, List.mem_flatten.mpr
      ⟨call.2.sunk, List.mem_map.mpr ⟨(encoded, call.2.sunk), ?_, rfl⟩, isSunk⟩⟩
    rcases List.mem_iff_append.mp made with ⟨before, after, split⟩
    rw [split, List.append_cons, sent_append, sent_append, pushes]
    simp

/-- Without a packetizer a medium sends nothing. -/
theorem sent_nil (sink : pipeline.hasSink = true) {kind : MediaKind}
    (noHandler : pipeline.rtp kind = none) :
    sent kind ((machine pipeline).transcript captures) = [] := by
  induction captures using List.reverseRecOn with
  | nil => rfl
  | append_singleton past event induction =>
      rcases ssrc_run sink kind past with ⟨stillSink, sameSource⟩
      rw [noHandler, Option.map_none, Option.map_eq_none_iff] at sameSource
      rw [Machine.transcript_snoc, sent_append, induction]
      cases sends_step kind stillSink event with
      | nothing _ silent => exact silent
      | frame handler encoded packets isHandler _ _ _ _ _ =>
          rw [sameSource] at isHandler
          cases isHandler

end SendPipeline

namespace ReceivePipeline

variable {codecs : Codecs} {initial : ReceivePipeline codecs} {events : List Event}
  {packet : RtpPacket} {arrival : SteadyTime}

theorem pushed_of_audio (pushed : .push packet arrival ∈ audioEvents initial events) :
    .pushPacket packet arrival ∈ events ∧ packet.ssrc = initial.config.audioSsrc := by
  rcases Machine.mem_shares _ _ pushed with ⟨past, event, isPrefix, mine⟩
  cases event with
  | pushPacket other time =>
      rw [audioShare] at mine
      split at mine
      · rename_i audio
        cases List.mem_singleton.mp mine
        rw [isAudio, Bool.and_eq_true, beq_iff_eq, (wiring_run initial past).1] at audio
        exact ⟨isPrefix.subset (by simp), audio.2⟩
      · cases mine
  | tick now => cases mine
  | proceed =>
      rw [audioShare] at mine
      split at mine
      · cases List.mem_singleton.mp mine
      · cases mine

theorem pushed_of_video (pushed : .push packet arrival ∈ videoEvents initial events) :
    ∃ past, past ++ [.pushPacket packet arrival] <+: events ∧
      ((machine initial).run past).isAudio packet = false := by
  rcases Machine.mem_shares _ _ pushed with ⟨past, event, isPrefix, mine⟩
  cases event with
  | pushPacket other time =>
      rw [videoShare] at mine
      split at mine
      · cases mine
      · rename_i notAudio
        cases List.mem_singleton.mp mine
        exact ⟨past, isPrefix, Bool.eq_false_iff.mpr notAudio⟩
  | tick now => cases mine
  | proceed =>
      rw [videoShare] at mine
      split at mine
      · cases List.mem_singleton.mp mine
      · cases mine

/-- A pipeline without a buffer for sound gives none. -/
theorem silent_step {pipeline : ReceivePipeline codecs} (noBuffer : pipeline.audioJitter = none)
    (event : Event) :
    (pipeline.step event).1.audioJitter = none ∧
      (pipeline.step event).2.filterMap Effect.sound? = [] := by
  cases event with
  | pushPacket packet arrival =>
      rw [step, pushPacket, noBuffer]
      exact ⟨rfl, rfl⟩
  | tick now =>
      rw [step]
      cases pipeline.working <;> exact ⟨noBuffer, rfl⟩
  | proceed =>
      rw [step]
      rcases pipeline.working with _ | now | now
      · exact ⟨noBuffer, rfl⟩
      · refine ⟨?_, (pipeline.drainVideo_frame now).2⟩
        dsimp only
        rw [drainVideo]
        split
        · exact noBuffer
        · split <;> exact noBuffer
      · dsimp only
        rw [drainAudio, noBuffer]
        exact ⟨rfl, rfl⟩

theorem silent_run (noBuffer : initial.audioJitter = none) (events : List Event) :
    ((machine initial).run events).audioJitter = none ∧ sounds initial events = [] := by
  induction events using List.reverseRecOn with
  | nil => exact ⟨noBuffer, rfl⟩
  | append_singleton past event induction =>
      have stepped := silent_step induction.1 event
      rw [Machine.run_snoc, sounds, Machine.produced_snoc, List.filterMap_append]
      exact ⟨stepped.1, List.append_eq_nil_iff.mpr ⟨induction.2, stepped.2⟩⟩

theorem not_pushed_of_silent (noBuffer : initial.audioJitter = none) :
    .push packet arrival ∉ audioEvents initial events := by
  intro pushed
  rcases Machine.mem_shares _ _ pushed with ⟨past, event, _, mine⟩
  have silent := (silent_run noBuffer past).1
  cases event with
  | pushPacket other time =>
      rw [audioShare, isAudio, silent] at mine
      cases mine
  | tick now => cases mine
  | proceed =>
      rw [audioShare] at mine
      split at mine
      · cases List.mem_singleton.mp mine
      · cases mine

end ReceivePipeline

namespace LoopbackCall

open GroupCall (sentVideo sunk transmission_sentVideo)
open JitterBuffer (returned pushes WasPushed)
open ReceivePipeline (create machine videoEvents audioEvents pictures sounds videoJbConfig
  audioJbConfig)
open RTPHandler

variable {video : VideoLibrary} {audio : AudioLibrary}

/-- The Opus frames that a pipeline sends of what is captured, with their packets. -/
def sentAudio (pipeline : SendPipeline video audio) (captures : List SendPipeline.Event) :
    List (EncodedFrame × List RtpPacket) :=
  SendPipeline.sent .audio ((SendPipeline.machine pipeline).transcript captures)

/-- A send pipeline at a receive pipeline. Sound is sent if and only if it is expected,
and then from a source that is not the video's and that the receiver knows. -/
structure Wired {codecs : Codecs} (pipeline : SendPipeline video audio)
    (audioDecoder : Option codecs.AudioDecoder) (config : ReceivePipeline.Config) : Prop where
  sink : pipeline.hasSink = true
  paired : pipeline.audioRtp.isSome = (audioDecoder.isSome && config.audioSsrc != 0)
  source : ∀ audioRtp ∈ pipeline.audioRtp,
    audioRtp.ssrc = config.audioSsrc ∧ audioRtp.ssrc ≠ pipeline.videoRtp.ssrc

section Call

variable {codecs : Codecs} {pipeline : SendPipeline video audio} {audioRtp : RTPHandler}
  {videoDecoder : Option codecs.VideoDecoder} {audioDecoder : Option codecs.AudioDecoder}
  {config : ReceivePipeline.Config} {captures : List SendPipeline.Event}
  {videoSink audioSink : Bool} {events : List ReceivePipeline.Event}

/-- At the sink the sound has its own source. -/
theorem sunk_audio (wired : Wired pipeline audioDecoder config)
    (isAudio : pipeline.audioRtp = some audioRtp) :
    ((sunk pipeline captures).filter fun packet => packet.ssrc = audioRtp.ssrc) =
      ((sentAudio pipeline captures).map Prod.snd).flatten := by
  apply @SendPipeline.sunk_run _ _ pipeline wired.sink .audio audioRtp isAudio
  intro other foreign different isForeign
  cases other with
  | audio => exact absurd rfl different
  | video =>
      cases isForeign
      exact (wired.source audioRtp isAudio).2.symm

theorem sentAudio_nil (wired : Wired pipeline audioDecoder config)
    (silent : pipeline.audioRtp = none) : sentAudio pipeline captures = [] :=
  @SendPipeline.sent_nil _ _ _ _ wired.sink .audio silent

/-- And all the rest is the video's. -/
theorem video_sunk (wired : Wired pipeline audioDecoder config) {packet : RtpPacket}
    (isSunk : packet ∈ sunk pipeline captures)
    (other : ∀ audioRtp ∈ pipeline.audioRtp, packet.ssrc ≠ audioRtp.ssrc) :
    packet ∈ ((sentVideo pipeline captures).map Prod.snd).flatten := by
  rcases SendPipeline.mem_sunk isSunk with ⟨kind, member⟩
  cases kind with
  | video => exact member
  | audio =>
      have isAudio : packet ∈ ((sentAudio pipeline captures).map Prod.snd).flatten := member
      cases sends : pipeline.audioRtp with
      | none =>
          rw [sentAudio_nil wired sends] at isAudio
          cases isAudio
      | some audioRtp =>
          rw [← sunk_audio wired sends, List.mem_filter] at isAudio
          exact absurd (of_decide_eq_true isAudio.2) (other audioRtp sends)

/-- A receiver that expects no sound has no buffer for it. -/
theorem noBuffer_of_silent (wired : Wired pipeline audioDecoder config)
    (silent : pipeline.audioRtp = none) :
    (create videoDecoder audioDecoder config videoSink audioSink).audioJitter = none := by
  have unpaired := wired.paired
  rw [silent, Option.isSome_none] at unpaired
  rw [ReceivePipeline.create, ← unpaired]
  rfl

theorem sounding_of_paired (wired : Wired pipeline audioDecoder config)
    (isAudio : pipeline.audioRtp = some audioRtp) :
    config.audioSsrc ≠ 0 ∧ ∃ decoder, audioDecoder = some decoder := by
  have paired := wired.paired
  rw [isAudio, Option.isSome_some, eq_comm, Bool.and_eq_true, bne_iff_ne,
    Option.isSome_iff_exists] at paired
  exact ⟨paired.2, paired.1⟩

theorem sound_playsOut (wired : Wired pipeline audioDecoder config)
    (isAudio : pipeline.audioRtp = some audioRtp)
    (advancing : Advancing (captures.filterMap (SendPipeline.Event.timestamp? .audio)))
    {initial : ReceivePipeline codecs} (sameConfig : initial.config = config)
    (fromSink : ∀ packet arrival, .pushPacket packet arrival ∈ events →
      packet ∈ sunk pipeline captures) :
    PlaysOut codecs.frameSearch (audioJbConfig config.targetDelay)
      ((sentAudio pipeline captures).map Prod.fst) ((sentAudio pipeline captures).map Prod.snd)
      (audioEvents initial events) := by
  have streams := (@SendPipeline.streams_run _ _ _ wired.sink .audio audioRtp isAudio captures).2
  have stamped := @SendPipeline.stamped_run _ _ _ wired.sink .audio audioRtp isAudio captures
  have advances : Advancing
      (((sentAudio pipeline captures).map Prod.fst).map EncodedFrame.rtpTimestamp) :=
    advancing.sublist stamped
  rcases SoundStream.exists_of_opus (isOpus_of_packetizeAll streams.packetized streams.isKind)
    advances.isChain advances.fitHalf streams.packetized with ⟨stream, arePackets, carry⟩
  have arePackets : (sentAudio pipeline captures).map Prod.snd =
      stream.packets.map fun packet => [packet] := arePackets
  rw [arePackets]
  apply stream.playsOut carry rfl
  intro packet arrival pushed
  rcases ReceivePipeline.pushed_of_audio pushed with ⟨given, source⟩
  rw [sameConfig, ← (wired.source audioRtp isAudio).1] at source
  have member : packet ∈ (sunk pipeline captures).filter fun packet =>
      packet.ssrc = audioRtp.ssrc :=
    List.mem_filter.mpr ⟨fromSink packet arrival given, decide_eq_true source⟩
  rw [sunk_audio wired isAudio, arePackets, ← List.flatMap_def, List.flatMap_singleton'] at member
  exact member

theorem silence_playsOut (wired : Wired pipeline audioDecoder config)
    (silent : pipeline.audioRtp = none) :
    PlaysOut codecs.frameSearch (audioJbConfig config.targetDelay)
      ((sentAudio pipeline captures).map Prod.fst) ((sentAudio pipeline captures).map Prod.snd)
      (audioEvents (create videoDecoder audioDecoder config videoSink audioSink) events) := by
  rw [sentAudio_nil wired silent]
  refine @audio_playout pipeline.videoRtp [] [] (fun _ member => nomatch member) .nil
    ⟨0, fun _ member => nomatch member⟩ rfl _ _ rfl _ fun packet arrival pushed => ?_
  exact absurd pushed (ReceivePipeline.not_pushed_of_silent (noBuffer_of_silent wired silent))

/-- What the audio sink has been given. -/
theorem sounds_run (wired : Wired pipeline audioDecoder config)
    (playsOut : PlaysOut codecs.frameSearch (audioJbConfig config.targetDelay)
      ((sentAudio pipeline captures).map Prod.fst) ((sentAudio pipeline captures).map Prod.snd)
      (audioEvents (create videoDecoder audioDecoder config videoSink audioSink) events)) :
    sounds (create videoDecoder audioDecoder config videoSink audioSink) events =
      if audioSink then
        (audioDecoder.map fun decoder => Lane.decodeAll codecs.decodeAudio decoder
          (returned codecs.frameSearch (audioJbConfig config.targetDelay)
            (audioEvents (create videoDecoder audioDecoder config videoSink audioSink)
              events))).getD []
      else [] := by
  cases sends : pipeline.audioRtp with
  | some audioRtp =>
      rcases sounding_of_paired wired sends with ⟨present, decoder, rfl⟩
      rw [(ReceivePipeline.audio_run _ decoder present videoSink audioSink events).2,
        (Lane.lane_run _ _ _ _).2]
      rfl
  | none =>
      have nothing := playsOut.inOrder
      rw [sentAudio_nil wired sends] at nothing
      rw [(ReceivePipeline.silent_run (noBuffer_of_silent wired sends) events).2,
        List.prefix_nil.mp nothing]
      cases audioSink <;> cases audioDecoder <;> rfl

/-- What the video buffer is given. -/
theorem pushed_video (wired : Wired pipeline audioDecoder config)
    (fromSink : ∀ packet arrival, .pushPacket packet arrival ∈ events →
      packet ∈ sunk pipeline captures) {packet : RtpPacket} {arrival : SteadyTime}
    (pushed : .push packet arrival ∈
      videoEvents (create videoDecoder audioDecoder config videoSink audioSink) events) :
    packet ∈ ((sentVideo pipeline captures).map Prod.snd).flatten := by
  rcases ReceivePipeline.pushed_of_video pushed with ⟨past, isPrefix, notAudio⟩
  apply video_sunk wired (fromSink packet arrival (isPrefix.subset (by simp)))
  intro audioRtp isAudio
  rcases sounding_of_paired wired isAudio with ⟨present, decoder, rfl⟩
  have isLane := (ReceivePipeline.audio_run videoDecoder decoder present videoSink audioSink past).1
  have sameConfig := (ReceivePipeline.wiring_run
    (create videoDecoder (some decoder) config videoSink audioSink) past).1
  rw [ReceivePipeline.isAudio, (ReceivePipeline.audioLane_eq isLane).2, sameConfig] at notAudio
  rw [(wired.source audioRtp isAudio).1]
  simpa [ReceivePipeline.create] using notAudio

/-- What a run makes of the video: a prefix while each pop finds its units whole, and
all of it when a pop finds nothing although everything has come and is due. -/
structure Shows (search : FrameSearch) (targetDelay : SteadyTime)
    (units : List (EncodedFrame × List RtpPacket)) (events : List JitterBuffer.Event) : Prop where
  inOrder : ∃ count, List.Forall₂ Delivers ((units.map Prod.fst).take count)
    (returned search (videoJbConfig targetDelay) events)
  drained : ∀ past now, past ++ [.pop now] <+: events →
    (((JitterBuffer.machine search (videoJbConfig targetDelay)).run past).pop now).2 = none →
    (∀ packet ∈ (units.map Prod.snd).flatten, WasPushed past packet) →
    (∀ packet arrival, (packet, arrival) ∈ pushes past → arrival + targetDelay ≤ now) →
    List.Forall₂ Delivers (units.map Prod.fst) (returned search (videoJbConfig targetDelay) past)

theorem shows_of_onTime {handler : RTPHandler} {units : List (EncodedFrame × List RtpPacket)}
    (transmission : Transmission handler (units.map Prod.fst) (units.map Prod.snd))
    (advancing : Advancing ((units.map Prod.fst).map EncodedFrame.rtpTimestamp))
    (search : FrameSearch) {targetDelay : SteadyTime} {events : List JitterBuffer.Event}
    (onlySent : ∀ packet arrival, .push packet arrival ∈ events →
      packet ∈ (units.map Prod.snd).flatten)
    (onTime : ∀ past now, past ++ [.pop now] <+: events →
      OnTime (units.map Prod.snd) targetDelay past now) :
    Shows search targetDelay units events := by
  rcases transmission.exists_orderedStream advancing with ⟨stream, arePackets, carry⟩
  have packetsOf : ∀ (index : Nat) (unit : SentUnit handler.maxPayload),
      stream.units[index]? = some unit → (units.map Prod.snd)[index]? = some unit.packets := by
    intro index unit isUnit
    rw [← arePackets, List.getElem?_map, isUnit]
    rfl
  have delivered : ∀ past, past <+: events →
      ∃ count, OrderedStream.Delivered stream search (videoJbConfig targetDelay) past count := by
    intro past isPrefix
    apply OrderedStream.delivered_run rfl
    · apply Stream.onlySent_of_flatten
      rw [arePackets]
      exact fun packet arrival member => onlySent packet arrival (isPrefix.subset member)
    · intro earlier now shorter index position unit later le isUnit isLater
      exact onTime earlier now (shorter.trans isPrefix) index position unit.packets later.packets le
        (packetsOf index unit isUnit) (packetsOf position later isLater)
  refine ⟨?_, ?_⟩
  · rcases delivered events (List.prefix_refl _) with ⟨count, _, frames⟩
    refine ⟨count, ?_⟩
    rw [frames]
    exact delivers_of_carry (List.forall₂_take count carry) .h264
  · intro past now isPrefix nothing allPushed due
    rcases delivered past ((List.prefix_append _ _).trans isPrefix) with ⟨count, before⟩
    have all := before.all_of_none rfl (by
      intro unit unitMem packet packetMem
      apply allPushed
      rw [← arePackets]
      exact List.mem_flatten.mpr ⟨_, List.mem_map_of_mem unitMem, packetMem⟩) due nothing
    rw [before.2, all, List.take_length]
    exact delivers_of_carry carry .h264

end Call

/-- A loopback call, for every sequence of captures and every interleaving of pushes
and ticks in which packets of the sink are lost, reordered and repeated at will: the
sinks are given what the decoders make of the frames that the two buffers return; of
the sound these are the accepted frames in order; of the video, while it is on time,
a prefix of what was sent, and all of it in the end; and every tick returns. -/
theorem loopback_call {codecs : Codecs} {pipeline : SendPipeline video audio}
    {audioDecoder : Option codecs.AudioDecoder} {config : ReceivePipeline.Config}
    (wired : Wired pipeline audioDecoder config) {captures : List SendPipeline.Event}
    (advancing : ∀ kind, Advancing (captures.filterMap (SendPipeline.Event.timestamp? kind)))
    (few : ∀ unit ∈ sentVideo pipeline captures, unit.2.length ≤ 2 ^ 15)
    (noFragment : ∀ unit ∈ sentVideo pipeline captures, ∀ nals,
      nalUnits unit.1.payload = .ok nals → ∀ nal ∈ nals,
        nal.length ≤ pipeline.videoRtp.maxPayload → nalType nal ≠ kNalFuA)
    (videoDecoder : codecs.VideoDecoder) (videoSink audioSink : Bool)
    {events : List ReceivePipeline.Event}
    (fromSink : ∀ packet arrival, .pushPacket packet arrival ∈ events →
      packet ∈ sunk pipeline captures) :
    let initial := create (some videoDecoder) audioDecoder config videoSink audioSink
    let shown := returned codecs.frameSearch (videoJbConfig config.targetDelay)
      (videoEvents initial events)
    let heard := returned codecs.frameSearch (audioJbConfig config.targetDelay)
      (audioEvents initial events)
    (pictures initial events =
        if videoSink then Lane.decodeAll codecs.decodeVideo videoDecoder shown else []) ∧
      (sounds initial events =
        if audioSink then
          (audioDecoder.map fun decoder =>
            Lane.decodeAll codecs.decodeAudio decoder heard).getD []
        else []) ∧
      PlaysOut codecs.frameSearch (audioJbConfig config.targetDelay)
        ((sentAudio pipeline captures).map Prod.fst) ((sentAudio pipeline captures).map Prod.snd)
        (audioEvents initial events) ∧
      ((∀ past now, past ++ [.pop now] <+: videoEvents initial events →
          OnTime ((sentVideo pipeline captures).map Prod.snd) config.targetDelay past now) →
        Shows codecs.frameSearch config.targetDelay (sentVideo pipeline captures)
          (videoEvents initial events)) ∧
      ∃ count, ((machine initial).run (events ++ List.replicate count .proceed)).working =
        none := by
  intro initial shown heard
  have stamped := @SendPipeline.stamped_run _ _ _ wired.sink .video _ rfl captures
  have playsOut : PlaysOut codecs.frameSearch (audioJbConfig config.targetDelay)
      ((sentAudio pipeline captures).map Prod.fst) ((sentAudio pipeline captures).map Prod.snd)
      (audioEvents initial events) := by
    cases sends : pipeline.audioRtp with
    | none => exact silence_playsOut wired sends
    | some audioRtp => exact sound_playsOut wired sends (advancing .audio) rfl fromSink
  refine ⟨?_, sounds_run wired playsOut, playsOut, ?_, ReceivePipeline.tick_returns initial events⟩
  · rw [(ReceivePipeline.video_run videoDecoder _ config videoSink audioSink events).2,
      (Lane.lane_run _ _ _ _).2]
  · intro onTime
    exact shows_of_onTime (transmission_sentVideo wired.sink few noFragment)
      ((advancing .video).sublist stamped) codecs.frameSearch
      (fun packet arrival pushed => pushed_video wired fromSink pushed) onTime

/-! ## A picture and a sound -/

def tinyCaptures : List SendPipeline.Event :=
  [.pushVideoFrame (some (SendPipeline.tinyPicture 3000)),
    .pushAudioFrame (some ⟨{}, List.replicate 120 0, 120, 0, 960⟩)]

def tinySound : RtpPacket :=
  { payloadType := 111, ssrc := 8, timestamp := 960, marker := true, payload := [1] }

def tinyReceiver : ReceivePipeline ReceiveRouter.plainCodecs :=
  create (some ()) (some ()) { videoSsrc := 7, audioSsrc := 8 } true true

/-- The sound arrives first, and twice. -/
def tinyEvents : List ReceivePipeline.Event :=
  [.pushPacket tinySound 0, .pushPacket (GroupCall.tinyPacket 0 3000) 1, .pushPacket tinySound 2,
    .tick 50000002, .proceed, .proceed, .proceed, .proceed]

theorem sentVideo_tiny : sentVideo SendPipeline.tinyCall tinyCaptures =
    [(GroupCall.tinyUnit 3000, [GroupCall.tinyPacket 0 3000])] := by
  decide

theorem fromSink_tiny {packet : RtpPacket} {arrival : SteadyTime}
    (given : .pushPacket packet arrival ∈ tinyEvents) :
    packet ∈ sunk SendPipeline.tinyCall tinyCaptures := by
  have allSunk : sunk SendPipeline.tinyCall tinyCaptures =
      [GroupCall.tinyPacket 0 3000, tinySound] := by decide
  rw [allSunk]
  simp only [tinyEvents, List.mem_cons, ReceivePipeline.Event.pushPacket.injEq, reduceCtorEq,
    List.not_mem_nil, or_false] at given
  rcases given with ⟨rfl, _⟩ | ⟨rfl, _⟩ | ⟨rfl, _⟩ <;> decide

theorem noFragment_tiny : ∀ unit ∈ sentVideo SendPipeline.tinyCall tinyCaptures, ∀ nals,
    nalUnits unit.1.payload = .ok nals → ∀ nal ∈ nals,
      nal.length ≤ SendPipeline.tinyCall.videoRtp.maxPayload → nalType nal ≠ kNalFuA := by
  rw [sentVideo_tiny]
  intro unit member nals isNals nal nalMem _
  have onlyNal : nalUnits (GroupCall.tinyUnit 3000).payload = .ok [[0x65, 2]] := by decide
  rw [List.mem_singleton.mp member, onlyNal] at isNals
  cases isNals
  rw [List.mem_singleton.mp nalMem]
  decide

/-- A call of pictures alone. -/
def silentCall : SendPipeline SendPipeline.plainVideo SendPipeline.plainAudio :=
  .create (some { ctx := some (), config := { width := 2, height := 2 } }) none true
    { videoSsrc := 7 }

def silentReceiver : ReceivePipeline ReceiveRouter.plainCodecs :=
  create (some ()) none { videoSsrc := 7, targetDelay := 20000000 } true false

def silentEvents : List ReceivePipeline.Event :=
  [.pushPacket (GroupCall.tinyPacket 0 3000) 1, .tick 20000001, .proceed, .proceed, .proceed]

theorem sentVideo_silent :
    sentVideo silentCall [.pushVideoFrame (some (SendPipeline.tinyPicture 3000))] =
      [(GroupCall.tinyUnit 3000, [GroupCall.tinyPacket 0 3000])] := by
  decide

/-- With sound, and without. -/
theorem loopback_call_tiny :
    (List.Forall₂ Delivers [GroupCall.tinyUnit 3000] (returned (.linear _) (videoJbConfig 50000000)
        [.push (GroupCall.tinyPacket 0 3000) 1, .pop 50000002]) ∧
      sounds tinyReceiver tinyEvents =
        returned (.linear _) (audioJbConfig 50000000) [.push tinySound 0, .push tinySound 2,
          .pop 50000002, .pop 50000002]) ∧
    pictures silentReceiver silentEvents =
        returned (.linear _) (videoJbConfig 20000000)
          [.push (GroupCall.tinyPacket 0 3000) 1, .pop 20000001, .pop 20000001] ∧
      sounds silentReceiver silentEvents = [] := by
  have videoOwn : videoEvents tinyReceiver tinyEvents =
      [.push (GroupCall.tinyPacket 0 3000) 1, .pop 50000002, .pop 50000002] := rfl
  have sounding : Wired SendPipeline.tinyCall
      (some () : Option ReceiveRouter.plainCodecs.AudioDecoder)
      { videoSsrc := 7, audioSsrc := 8 } := by
    refine ⟨rfl, rfl, fun audioRtp isAudio => ?_⟩
    cases isAudio
    exact ⟨rfl, by decide⟩
  have silent : Wired silentCall (none : Option ReceiveRouter.plainCodecs.AudioDecoder)
      { videoSsrc := 7, targetDelay := 20000000 } :=
    ⟨rfl, rfl, fun _ isAudio => nomatch isAudio⟩
  rcases @loopback_call _ _ _ SendPipeline.tinyCall _ _ sounding tinyCaptures
    (by intro kind; cases kind <;> exact List.pairwise_singleton _ _)
    (by rw [sentVideo_tiny]; decide) noFragment_tiny () true true
    tinyEvents (fun _ _ => fromSink_tiny) with ⟨_, heard, _, shows, _⟩
  rcases @loopback_call _ _ _ silentCall _ _ silent
    [.pushVideoFrame (some (SendPipeline.tinyPicture 3000))]
    (by
      intro kind
      cases kind
      · exact List.pairwise_singleton _ _
      · exact .nil)
    (by rw [sentVideo_silent]; decide)
    (by
      rw [sentVideo_silent, ← sentVideo_tiny]
      exact noFragment_tiny) () true false silentEvents
    (by
      intro packet arrival given
      simp only [silentEvents, List.mem_cons, ReceivePipeline.Event.pushPacket.injEq, reduceCtorEq,
        List.not_mem_nil, or_false] at given
      rw [given.1]
      decide) with ⟨pictured, unheard, _⟩
  have onTime : ∀ past now, past ++ [.pop now] <+: videoEvents tinyReceiver tinyEvents →
      OnTime ((sentVideo SendPipeline.tinyCall tinyCaptures).map Prod.snd) 50000000 past now := by
    intro past now isPrefix index position packets later _ isPackets _ _ packet packetMem
    rw [videoOwn] at isPrefix
    rw [sentVideo_tiny] at isPackets
    rw [List.mem_singleton.mp (List.mem_of_getElem? isPackets), List.mem_singleton] at packetMem
    refine ⟨1, ?_⟩
    rw [packetMem]
    rcases past with _ | ⟨first, rest⟩
    · simp at isPrefix
    · rw [List.cons_append, List.cons_prefix_cons] at isPrefix
      rw [isPrefix.1]
      exact List.mem_cons_self
  refine ⟨⟨?_, heard⟩, pictured, unheard⟩
  have drained := (shows onTime).drained [.push (GroupCall.tinyPacket 0 3000) 1, .pop 50000002]
    50000002 (videoOwn ▸ List.prefix_refl _) (by decide)
  rw [sentVideo_tiny] at drained
  apply drained
  · intro packet member
    exact ⟨1, by rw [List.mem_singleton.mp member]; decide⟩
  · intro packet arrival member
    cases List.mem_singleton.mp member
    decide

end LoopbackCall

end Vela
