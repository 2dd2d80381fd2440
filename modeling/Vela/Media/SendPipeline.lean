import Vela.Codec.Encoders
import Vela.Foundation.Parts
import Vela.Network.Hops

/-! # The send pipeline

Captured pictures and sound are encoded, packetized and handed to the sink, on the
thread that captures them. Each medium has an RTP stream of its own. -/

namespace Vela

open Foundation RtpPacket RTPHandler

def kAudioRtpClockHz : BitVec 32 := 48000

structure SendPipeline (video : VideoLibrary) (audio : AudioLibrary) where
  videoEncoder : Option (VideoEncoder video)
  audioEncoder : Option (AudioEncoder audio)
  hasSink : Bool
  videoRtp : RTPHandler
  audioRtp : Option RTPHandler

namespace SendPipeline

structure Config where
  videoPayloadType : BitVec 8 := 96
  videoSsrc : BitVec 32 := 0
  audioPayloadType : BitVec 8 := 111
  audioSsrc : BitVec 32 := 0

inductive Event where
  | pushVideoFrame (frame : Option VideoFrame)
  | pushAudioFrame (frame : Option AudioFrame)
  | forceKeyframe
  | setVideoBitrate (kbps : Int)

/-- What a call returns, the encoded frame that the tap sees, and the packets that
the sink gets. -/
structure Output where
  status : Except Fault Unit := .ok ()
  tapped : Option EncodedFrame := none
  sunk : List RtpPacket := []

variable {video : VideoLibrary} {audio : AudioLibrary}

def create (videoEncoder : Option (VideoEncoder video)) (audioEncoder : Option (AudioEncoder audio))
    (hasSink : Bool) (config : Config) : SendPipeline video audio where
  videoEncoder := videoEncoder
  audioEncoder := audioEncoder
  hasSink := hasSink
  videoRtp := .create config.videoPayloadType config.videoSsrc kVideoRtpClockHz
  audioRtp := audioEncoder.map fun _ =>
    .create config.audioPayloadType config.audioSsrc kAudioRtpClockHz

/-- An encoded frame on its way out. The encoder may have kept the frame to itself. -/
def sendOut (hasSink : Bool) (handler : RTPHandler) (encoded : EncodedFrame) :
    RTPHandler × Output :=
  if encoded.payload.isEmpty then (handler, {})
  else
    match handler.packetize encoded with
    | (handler, .error fault) => (handler, { status := .error fault, tapped := some encoded })
    | (handler, .ok packets) =>
        (handler, { tapped := some encoded, sunk := if hasSink then packets else [] })

def pushVideoFrame (pipeline : SendPipeline video audio) (frame : Option VideoFrame) :
    SendPipeline video audio × Output :=
  match pipeline.videoEncoder with
  | none => (pipeline, { status := .error (.error .notInitialized) })
  | some encoder =>
      let (encoder, encoded) := encoder.encode frame
      let pipeline := { pipeline with videoEncoder := some encoder }
      match encoded with
      | .error error => (pipeline, { status := .error (.error error) })
      | .ok encoded =>
          let (videoRtp, output) := sendOut pipeline.hasSink pipeline.videoRtp encoded
          ({ pipeline with videoRtp }, output)

def pushAudioFrame (pipeline : SendPipeline video audio) (frame : Option AudioFrame) :
    SendPipeline video audio × Output :=
  match pipeline.audioEncoder, pipeline.audioRtp with
  | some encoder, some audioRtp =>
      let (encoder, encoded) := encoder.encode frame
      let pipeline := { pipeline with audioEncoder := some encoder }
      match encoded with
      | .error error => (pipeline, { status := .error (.error error) })
      | .ok encoded =>
          let (audioRtp, output) := sendOut pipeline.hasSink audioRtp encoded
          ({ pipeline with audioRtp := some audioRtp }, output)
  | _, _ => (pipeline, { status := .error (.error .notInitialized) })

def forceKeyframe (pipeline : SendPipeline video audio) : SendPipeline video audio :=
  { pipeline with videoEncoder := pipeline.videoEncoder.map VideoEncoder.forceKeyframe }

def setVideoBitrate (pipeline : SendPipeline video audio) (kbps : Int) : SendPipeline video audio :=
  { pipeline with
    videoEncoder := pipeline.videoEncoder.map fun encoder => encoder.setBitrate kbps }

def step (pipeline : SendPipeline video audio) : Event → SendPipeline video audio × Output
  | .pushVideoFrame frame => pipeline.pushVideoFrame frame
  | .pushAudioFrame frame => pipeline.pushAudioFrame frame
  | .forceKeyframe => (pipeline.forceKeyframe, {})
  | .setVideoBitrate kbps => (pipeline.setVideoBitrate kbps, {})

def machine (initial : SendPipeline video audio) :
    Machine (SendPipeline video audio) Event Output where
  initial := initial
  step := step

/-! ## What is sent of a medium -/

def Event.isPush (kind : MediaKind) : Event → Bool
  | .pushVideoFrame _ => kind = .video
  | .pushAudioFrame _ => kind = .audio
  | _ => false

/-- The pushes of a medium that sent a frame, with the frame and its packets. -/
def sent (kind : MediaKind) (calls : List (Event × Output)) :
    List (EncodedFrame × List RtpPacket) :=
  calls.filterMap fun (event, output) =>
    match event.isPush kind, output.status, output.tapped with
    | true, .ok _, some encoded => some (encoded, output.sunk)
    | _, _, _ => none

end SendPipeline

/-! ## Packetizing one frame more -/

namespace RTPHandler

theorem packetize_outcome (handler : RTPHandler) (frame : EncodedFrame) :
    (∃ error, handler.packetize frame = (handler, .error (.error error))) ∨
    ∃ packets : List RtpPacket,
      handler.packetize frame = (handler.advancedBy packets.length, .ok packets) ∧
      ∀ index (within : index < packets.length),
        packets[index].sequenceNumber = handler.seq + BitVec.ofNat 16 index := by
  rcases packetize_cases handler frame with refused | ⟨payloads, _, accepted⟩
  · exact .inl refused
  · refine .inr ⟨handler.numberedPackets frame.rtpTimestamp payloads, ?_, ?_⟩
    · rw [accepted, numberedPackets, List.length_mapIdx]
    · intro index within
      simp [numberedPackets]

theorem advancedBy_zero (handler : RTPHandler) : handler.advancedBy 0 = handler := by
  simp [advancedBy]

theorem packetizeAll_snoc {handler after : RTPHandler} {frames : List EncodedFrame}
    {sent : List (List RtpPacket)} {frame : EncodedFrame} {packets : List RtpPacket}
    (earlier : handler.packetizeAll frames = .ok sent)
    (now : (handler.advancedBy sent.flatten.length).packetize frame = (after, .ok packets)) :
    handler.packetizeAll (frames ++ [frame]) = .ok (sent ++ [packets]) := by
  induction frames generalizing handler sent with
  | nil =>
      cases earlier
      rw [List.flatten_nil, List.length_nil, advancedBy_zero] at now
      rw [List.nil_append, packetizeAll, now]
      rfl
  | cons first rest induction =>
      rw [packetizeAll] at earlier
      rcases packetize_outcome handler first with ⟨error, refused⟩ | ⟨ofFirst, accepted, _⟩
      · rw [refused] at earlier
        cases earlier
      · rw [accepted] at earlier
        rcases bind_eq_ok.mp earlier with ⟨later, packetizedLater, same⟩
        cases same
        rw [List.flatten_cons, List.length_append, ← advancedBy_advancedBy] at now
        rw [List.cons_append, packetizeAll, accepted]
        dsimp only
        rw [induction packetizedLater now]
        rfl

/-- The packets of all frames together are numbered one after another. -/
theorem packetizeAll_numbered {handler : RTPHandler} {frames : List EncodedFrame}
    {sent : List (List RtpPacket)} (packetized : handler.packetizeAll frames = .ok sent) :
    ∀ index (within : index < sent.flatten.length),
      sent.flatten[index].sequenceNumber = handler.seq + BitVec.ofNat 16 index := by
  induction frames generalizing handler sent with
  | nil =>
      cases packetized
      intro index within
      cases within
  | cons first rest induction =>
      rw [packetizeAll] at packetized
      rcases packetize_outcome handler first with ⟨error, refused⟩ | ⟨ofFirst, accepted, numbered⟩
      · rw [refused] at packetized
        cases packetized
      · rw [accepted] at packetized
        rcases bind_eq_ok.mp packetized with ⟨later, packetizedLater, same⟩
        cases same
        intro index within
        simp only [List.flatten_cons]
        rcases Nat.lt_or_ge index ofFirst.length with inFirst | beyond
        · rw [List.getElem_append_left inFirst]
          exact numbered index inFirst
        · rw [List.flatten_cons, List.length_append] at within
          rw [List.getElem_append_right beyond, induction packetizedLater _ (by omega)]
          rw [advancedBy, BitVec.add_assoc, ← BitVec.ofNat_add, Nat.add_sub_cancel' beyond]

end RTPHandler

/-! ## Runs -/

namespace SendPipeline

variable {video : VideoLibrary} {audio : AudioLibrary}

/-- The packetizer of a medium. -/
def rtp (pipeline : SendPipeline video audio) : MediaKind → Option RTPHandler
  | .video => some pipeline.videoRtp
  | .audio => pipeline.audioRtp

/-- The times of what is captured of a medium, call by call. -/
def Event.timestamp? (kind : MediaKind) : Event → Option (BitVec 32)
  | .pushVideoFrame frame => if kind = .video then frame.map VideoFrame.rtpTimestamp else none
  | .pushAudioFrame frame => if kind = .audio then frame.map AudioFrame.rtpTimestamp else none
  | _ => none

theorem sendOut_cases (handler : RTPHandler) (encoded : EncodedFrame) :
    (sendOut true handler encoded = (handler, {})) ∨
    (∃ error, sendOut true handler encoded =
      (handler, { status := .error (.error error), tapped := some encoded })) ∨
    ∃ packets : List RtpPacket,
      handler.packetize encoded = (handler.advancedBy packets.length, .ok packets) ∧
        sendOut true handler encoded =
          (handler.advancedBy packets.length, { tapped := some encoded, sunk := packets }) := by
  rw [sendOut]
  split
  · exact .inl rfl
  · rcases packetize_outcome handler encoded with ⟨error, refused⟩ | ⟨packets, accepted, _⟩
    · rw [refused]
      exact .inr (.inl ⟨error, rfl⟩)
    · rw [accepted]
      exact .inr (.inr ⟨packets, rfl, rfl⟩)

/-- What a call does to the medium `kind`: it sends nothing of it and leaves its
packetizer alone, or it is the push of a frame that is encoded and packetized. -/
inductive Sends (kind : MediaKind) (pipeline : SendPipeline video audio) (event : Event)
    (next : SendPipeline video audio) (output : Output) : Prop where
  | nothing (same : next.rtp kind = pipeline.rtp kind) (silent : sent kind [(event, output)] = [])
  | frame (handler : RTPHandler) (encoded : EncodedFrame) (packets : List RtpPacket)
      (isHandler : pipeline.rtp kind = some handler)
      (packetized : handler.packetize encoded = (handler.advancedBy packets.length, .ok packets))
      (advanced : next.rtp kind = some (handler.advancedBy packets.length))
      (sends : sent kind [(event, output)] = [(encoded, packets)])
      (isKind : encoded.kind = kind)
      (stamped : event.timestamp? kind = some encoded.rtpTimestamp)

/-- A push of another medium, or none at all. -/
theorem sent_other {kind : MediaKind} {event : Event} (other : event.isPush kind = false)
    (output : Output) : sent kind [(event, output)] = [] := by
  simp [sent, other]

theorem sent_failed (kind : MediaKind) (event : Event) {output : Output} {fault : Fault}
    (failed : output.status = .error fault) : sent kind [(event, output)] = [] := by
  simp [sent, failed]

theorem sent_untapped (kind : MediaKind) (event : Event) {output : Output}
    (untapped : output.tapped = none) : sent kind [(event, output)] = [] := by
  simp [sent, untapped]

theorem sends_pushVideoFrame (kind : MediaKind) {pipeline : SendPipeline video audio}
    (sink : pipeline.hasSink = true) (frame : Option VideoFrame) :
    Sends kind pipeline (.pushVideoFrame frame) (pipeline.pushVideoFrame frame).1
      (pipeline.pushVideoFrame frame).2 := by
  rw [pushVideoFrame]
  cases pipeline.videoEncoder with
  | none => exact .nothing rfl (sent_failed _ _ rfl)
  | some encoder =>
      dsimp only
      rcases encodes : encoder.encode frame with ⟨after, _ | encoded⟩
      · exact .nothing rfl (sent_failed _ _ rfl)
      · rcases VideoEncoder.encode_ok encodes with ⟨picture, rfl, isVideo, _, stamped, _⟩
        dsimp only
        rw [sink]
        cases kind with
        | audio => exact .nothing rfl (sent_other rfl _)
        | video =>
            rcases sendOut_cases pipeline.videoRtp encoded with
              kept | ⟨error, refused⟩ | ⟨packets, packetized, out⟩
            · rw [kept]
              exact .nothing rfl (sent_untapped _ _ rfl)
            · rw [refused]
              exact .nothing rfl (sent_failed _ _ rfl)
            · rw [out]
              exact .frame pipeline.videoRtp encoded packets rfl packetized rfl rfl isVideo
                (congrArg some stamped.symm)

theorem sends_pushAudioFrame (kind : MediaKind) {pipeline : SendPipeline video audio}
    (sink : pipeline.hasSink = true) (frame : Option AudioFrame) :
    Sends kind pipeline (.pushAudioFrame frame) (pipeline.pushAudioFrame frame).1
      (pipeline.pushAudioFrame frame).2 := by
  rw [pushAudioFrame]
  split
  · rename_i encoder handler _ isHandler
    rcases encodes : encoder.encode frame with ⟨after, _ | encoded⟩
    · exact .nothing rfl (sent_failed _ _ rfl)
    · rcases AudioEncoder.encode_ok encodes with ⟨sound, rfl, isAudio, _, stamped, _⟩
      dsimp only
      rw [sink]
      cases kind with
      | video => exact .nothing rfl (sent_other rfl _)
      | audio =>
          rcases sendOut_cases handler encoded with
            kept | ⟨error, refused⟩ | ⟨packets, packetized, out⟩
          · rw [kept]
            exact .nothing isHandler.symm (sent_untapped _ _ rfl)
          · rw [refused]
            exact .nothing isHandler.symm (sent_failed _ _ rfl)
          · rw [out]
            exact .frame handler encoded packets isHandler packetized rfl rfl isAudio
              (congrArg some stamped.symm)
  · exact .nothing rfl (sent_failed _ _ rfl)

theorem sends_step (kind : MediaKind) {pipeline : SendPipeline video audio}
    (sink : pipeline.hasSink = true) (event : Event) :
    Sends kind pipeline event (pipeline.step event).1 (pipeline.step event).2 := by
  cases event with
  | pushVideoFrame frame => exact sends_pushVideoFrame kind sink frame
  | pushAudioFrame frame => exact sends_pushAudioFrame kind sink frame
  | forceKeyframe => exact .nothing (by cases kind <;> rfl) (sent_other rfl _)
  | setVideoBitrate kbps => exact .nothing (by cases kind <;> rfl) (sent_other rfl _)

theorem hasSink_step (pipeline : SendPipeline video audio) (event : Event) :
    (pipeline.step event).1.hasSink = pipeline.hasSink := by
  cases event with
  | forceKeyframe => rfl
  | setVideoBitrate kbps => rfl
  | pushVideoFrame frame =>
      rw [step, pushVideoFrame]
      split
      · rfl
      · dsimp only
        split <;> rfl
  | pushAudioFrame frame =>
      rw [step, pushAudioFrame]
      split
      · dsimp only
        split <;> rfl
      · rfl

theorem sent_append (kind : MediaKind) (calls more : List (Event × Output)) :
    sent kind (calls ++ more) = sent kind calls ++ sent kind more := List.filterMap_append

/-- What holds of the calls so far and the packetizer of a medium after them. -/
structure Streams (kind : MediaKind) (handler : RTPHandler) (calls : List (Event × Output))
    (pipeline : SendPipeline video audio) : Prop where
  packetized : handler.packetizeAll ((sent kind calls).map Prod.fst) =
    .ok ((sent kind calls).map Prod.snd)
  counted : pipeline.rtp kind =
    some (handler.advancedBy ((sent kind calls).map Prod.snd).flatten.length)
  isKind : ∀ frame ∈ (sent kind calls).map Prod.fst, frame.kind = kind
  /-- Each frame that is sent has the time of a capture, in their order. -/
  stamped : List.Sublist ((sent kind calls).map fun call => call.1.rtpTimestamp)
    (calls.filterMap fun call => call.1.timestamp? kind)

theorem Streams.step {kind : MediaKind} {handler : RTPHandler} {calls : List (Event × Output)}
    {pipeline next : SendPipeline video audio} {event : Event} {output : Output}
    (streams : Streams kind handler calls pipeline)
    (sends : Sends kind pipeline event next output) :
    Streams kind handler (calls ++ [(event, output)]) next := by
  cases sends with
  | nothing same silent =>
      have unchanged : sent kind (calls ++ [(event, output)]) = sent kind calls := by
        rw [sent_append, silent, List.append_nil]
      refine ⟨?_, ?_, ?_, ?_⟩
      · rw [unchanged]
        exact streams.packetized
      · rw [unchanged, same]
        exact streams.counted
      · rw [unchanged]
        exact streams.isKind
      · rw [unchanged, List.filterMap_append]
        exact streams.stamped.trans (List.sublist_append_left _ _)
  | frame current encoded packets isHandler packetized advanced sends isKind stamped =>
      rw [streams.counted] at isHandler
      cases isHandler
      have grown : sent kind (calls ++ [(event, output)]) =
          sent kind calls ++ [(encoded, packets)] := by
        rw [sent_append, sends]
      refine ⟨?_, ?_, ?_, ?_⟩
      · rw [grown, List.map_append, List.map_append]
        exact packetizeAll_snoc streams.packetized packetized
      · rw [grown, advanced, advancedBy_advancedBy]
        simp
      · rw [grown, List.map_append]
        intro frame member
        rcases List.mem_append.mp member with earlier | now
        · exact streams.isKind frame earlier
        · rw [List.mem_singleton.mp now]
          exact isKind
      · rw [grown, List.map_append, List.filterMap_append]
        apply streams.stamped.append
        simp [stamped]

theorem streams_run {initial : SendPipeline video audio} (sink : initial.hasSink = true)
    {kind : MediaKind} {handler : RTPHandler} (isHandler : initial.rtp kind = some handler)
    (events : List Event) :
    (((machine initial).run events).hasSink = true) ∧
      Streams kind handler ((machine initial).transcript events) ((machine initial).run events) := by
  induction events using List.reverseRecOn with
  | nil =>
      refine ⟨sink, rfl, ?_, ?_, List.Sublist.refl _⟩
      · exact isHandler.trans (congrArg some handler.advancedBy_zero.symm)
      · intro frame member
        cases member
  | append_singleton past event induction =>
      rw [Machine.run_snoc, Machine.transcript_snoc]
      refine ⟨(hasSink_step _ event).trans induction.1, ?_⟩
      exact induction.2.step (sends_step kind induction.1 event)

/-- Packets reach the sink from a push that returns ok alone. -/
theorem sunk_step (pipeline : SendPipeline video audio) (event : Event) :
    (pipeline.step event).2.sunk = [] ∨
      ∃ kind encoded, event.isPush kind = true ∧ (pipeline.step event).2.status = .ok () ∧
        (pipeline.step event).2.tapped = some encoded := by
  have ofSendOut : ∀ (hasSink : Bool) (handler : RTPHandler) (encoded : EncodedFrame),
      (sendOut hasSink handler encoded).2.sunk = [] ∨
        ∃ tapped, (sendOut hasSink handler encoded).2.status = .ok () ∧
          (sendOut hasSink handler encoded).2.tapped = some tapped := by
    intro hasSink handler encoded
    rw [sendOut]
    split
    · exact .inl rfl
    · split
      · exact .inl rfl
      · exact .inr ⟨encoded, rfl, rfl⟩
  cases event with
  | forceKeyframe => exact .inl rfl
  | setVideoBitrate kbps => exact .inl rfl
  | pushVideoFrame frame =>
      rw [step, pushVideoFrame]
      split
      · exact .inl rfl
      · dsimp only
        split
        · exact .inl rfl
        · rename_i encoded _
          rcases ofSendOut pipeline.hasSink pipeline.videoRtp encoded with
            silent | ⟨tapped, ok, seen⟩
          · exact .inl silent
          · exact .inr ⟨.video, tapped, rfl, ok, seen⟩
  | pushAudioFrame frame =>
      rw [step, pushAudioFrame]
      split
      · rename_i handler _ _
        dsimp only
        split
        · exact .inl rfl
        · rename_i encoded _
          rcases ofSendOut pipeline.hasSink handler encoded with silent | ⟨tapped, ok, seen⟩
          · exact .inl silent
          · exact .inr ⟨.audio, tapped, rfl, ok, seen⟩
      · exact .inl rfl

theorem sent_push {kind : MediaKind} {event : Event} {output : Output} {encoded : EncodedFrame}
    (isPush : event.isPush kind = true) (ok : output.status = .ok ())
    (seen : output.tapped = some encoded) :
    sent kind [(event, output)] = [(encoded, output.sunk)] := by
  simp [sent, isPush, ok, seen]

theorem ssrc_run {initial : SendPipeline video audio} (sink : initial.hasSink = true)
    (kind : MediaKind) (events : List Event) :
    (((machine initial).run events).hasSink = true) ∧
      (((machine initial).run events).rtp kind).map RTPHandler.ssrc =
        (initial.rtp kind).map RTPHandler.ssrc := by
  induction events using List.reverseRecOn with
  | nil => exact ⟨sink, rfl⟩
  | append_singleton past event induction =>
      rw [Machine.run_snoc, ← induction.2]
      refine ⟨(hasSink_step _ event).trans induction.1, ?_⟩
      cases sends_step kind induction.1 event with
      | nothing same _ => exact congrArg _ same
      | frame handler encoded packets isHandler _ advanced _ _ _ =>
          have next : ((machine initial).next ((machine initial).run past) event).rtp kind =
              some (handler.advancedBy packets.length) := advanced
          rw [isHandler, next]
          rfl

theorem sent_silent (kind : MediaKind) (event : Event) {output : Output}
    (silent : output.sunk = []) : ((sent kind [(event, output)]).map Prod.snd).flatten = [] := by
  rcases output with ⟨status, tapped, sunk⟩
  cases silent
  cases pushes : event.isPush kind with
  | false => rw [sent_other pushes]; rfl
  | true =>
      cases tapped with
      | none => rw [sent_untapped kind event rfl]; rfl
      | some encoded =>
          cases status with
          | error fault => rw [sent_failed kind event rfl]; rfl
          | ok done => rw [sent_push pushes rfl rfl]; rfl

theorem isPush_unique {event : Event} {kind other : MediaKind} (isPush : event.isPush kind = true)
    (also : event.isPush other = true) : other = kind := by
  cases event <;> simp_all [Event.isPush]

/-- Of the packets that a step hands to the sink, those with a medium's SSRC are the
medium's. -/
theorem sunk_of_ssrc {pipeline : SendPipeline video audio} (sink : pipeline.hasSink = true)
    {kind : MediaKind} {ssrc : BitVec 32}
    (own : ∀ handler, pipeline.rtp kind = some handler → handler.ssrc = ssrc)
    (apart : ∀ other handler, other ≠ kind → pipeline.rtp other = some handler →
      handler.ssrc ≠ ssrc) (event : Event) :
    (pipeline.step event).2.sunk.filter (fun packet => packet.ssrc = ssrc) =
      ((sent kind [(event, (pipeline.step event).2)]).map Prod.snd).flatten := by
  rcases sunk_step pipeline event with silent | ⟨pushed, encoded, isPush, ok, seen⟩
  · rw [sent_silent kind event silent, silent]
    rfl
  · have pushes := sent_push isPush ok seen
    cases sends_step pushed sink event with
    | nothing _ silent =>
        rw [silent] at pushes
        cases pushes
    | frame handler frame packets isHandler packetized _ sends _ _ =>
        rw [sends] at pushes
        cases pushes
        have emitted := emits_packetize packetized
        by_cases same : pushed = kind
        · rw [← same, sends]
          have all : (pipeline.step event).2.sunk.filter (fun packet => packet.ssrc = ssrc) =
              (pipeline.step event).2.sunk := by
            apply List.filter_eq_self.mpr
            intro packet member
            rw [(emitted packet member).ssrc, own handler (same ▸ isHandler)]
            exact decide_eq_true rfl
          simp [all]
        · have notKind : event.isPush kind = false := by
            cases also : event.isPush kind with
            | false => rfl
            | true => exact absurd (isPush_unique isPush also).symm same
          rw [sent_other notKind]
          apply List.filter_eq_nil_iff.mpr
          intro packet member
          rw [(emitted packet member).ssrc]
          simpa using apart pushed handler same isHandler

/-- At the sink a medium's packets are those with its SSRC. -/
theorem sunk_run {initial : SendPipeline video audio} (sink : initial.hasSink = true)
    {kind : MediaKind} {handler : RTPHandler} (isHandler : initial.rtp kind = some handler)
    (apart : ∀ other foreign, other ≠ kind → initial.rtp other = some foreign →
      foreign.ssrc ≠ handler.ssrc) (events : List Event) :
    ((((machine initial).transcript events).flatMap fun call => call.2.sunk).filter
        fun packet => packet.ssrc = handler.ssrc) =
      ((sent kind ((machine initial).transcript events)).map Prod.snd).flatten := by
  induction events using List.reverseRecOn with
  | nil => rfl
  | append_singleton past event induction =>
      have sinks := (ssrc_run sink kind past).1
      have ofStep := @sunk_of_ssrc _ _ _ sinks kind handler.ssrc
        (by
          intro current isCurrent
          have same := (ssrc_run sink kind past).2
          rw [isCurrent, isHandler] at same
          exact Option.some.inj same)
        (by
          intro other current different isCurrent
          have same := (ssrc_run sink other past).2
          rw [isCurrent] at same
          rcases Option.map_eq_some_iff.mp same.symm with ⟨foreign, isForeign, sameSsrc⟩
          rw [← sameSsrc]
          exact apart other foreign different isForeign) event
      rw [Machine.transcript_snoc, List.flatMap_append, List.filter_append, induction, sent_append,
        List.map_append, List.flatten_append, List.flatMap_singleton]
      exact congrArg _ ofStep

/-- The times of what is sent are those of captures, in their order. -/
theorem stamped_run {initial : SendPipeline video audio} (sink : initial.hasSink = true)
    {kind : MediaKind} {handler : RTPHandler} (isHandler : initial.rtp kind = some handler)
    (events : List Event) :
    List.Sublist
      (((sent kind ((machine initial).transcript events)).map Prod.fst).map
        EncodedFrame.rtpTimestamp)
      (events.filterMap (Event.timestamp? kind)) := by
  have ofCalls : events.filterMap (Event.timestamp? kind) =
      ((machine initial).transcript events).filterMap fun call => call.1.timestamp? kind := by
    conv_lhs => rw [← Machine.transcript_events (machine initial) events, List.filterMap_map]
    rfl
  rw [ofCalls, List.map_map]
  exact (streams_run sink isHandler events).2.stamped

/-- Over every sequence of calls, the pushes of a medium that send something send
what its packetizer makes of the frames one after another, numbered without a gap,
whatever other calls or failures come between; at the sink these are the packets
with the medium's SSRC, if the other medium has another one; their times are those
of captures, in order; and a call that fails hands nothing over. -/
theorem pipeline_streams {initial : SendPipeline video audio} (sink : initial.hasSink = true)
    {kind : MediaKind} {handler : RTPHandler} (isHandler : initial.rtp kind = some handler)
    (events : List Event) :
    let calls := (machine initial).transcript events
    let frames := (sent kind calls).map Prod.fst
    let packets := (sent kind calls).map Prod.snd
    handler.packetizeAll frames = .ok packets ∧
      ((∀ other foreign, other ≠ kind → initial.rtp other = some foreign →
          foreign.ssrc ≠ handler.ssrc) →
        ((calls.flatMap fun call => call.2.sunk).filter fun packet => packet.ssrc = handler.ssrc) =
          packets.flatten) ∧
      (∀ index (within : index < packets.flatten.length),
        packets.flatten[index].sequenceNumber = handler.seq + BitVec.ofNat 16 index) ∧
      List.Sublist (frames.map EncodedFrame.rtpTimestamp)
        (events.filterMap (Event.timestamp? kind)) ∧
      ∀ call ∈ calls, ∀ fault, call.2.status = .error fault → call.2.sunk = [] := by
  intro calls frames packets
  have streams := (streams_run sink isHandler events).2
  refine ⟨streams.packetized, fun apart => sunk_run sink isHandler apart events,
    packetizeAll_numbered streams.packetized, ?_, ?_⟩
  · exact stamped_run sink isHandler events
  · intro call member fault failed
    rcases Machine.mem_transcript member with ⟨past, _, made⟩
    rw [made] at failed ⊢
    rcases sunk_step ((machine initial).run past) call.1 with silent | ⟨_, _, _, ok, _⟩
    · exact silent
    · have succeeded : ((machine initial).output ((machine initial).run past) call.1).status =
          .ok () := ok
      rw [succeeded] at failed
      cases failed

/-- An encoder that makes one NAL unit of every picture. -/
def plainVideo : VideoLibrary where
  Context := Unit
  open2 := fun _ => .ok ()
  setRates := fun ctx _ => ctx
  sendFrame := fun ctx _ => (ctx, true)
  receivePacket := fun ctx => (ctx, some ⟨[0, 0, 0, 1, 0x65, 2], true⟩)

def plainAudio : AudioLibrary where
  Encoder := Unit
  create := fun _ _ => some ()
  encode := fun enc _ => (enc, some [1])

/-- A call of 2x2 pixels. -/
def tinyCall : SendPipeline plainVideo plainAudio :=
  create (some { ctx := some (), config := { width := 2, height := 2 } }) (some { enc := some () })
    true { videoSsrc := 7, audioSsrc := 8 }

def tinyPicture (timestamp : BitVec 32) : VideoFrame where
  format := .i420
  width := 2
  height := 2
  planes := #v[⟨0, 2⟩, ⟨4, 1⟩, ⟨5, 1⟩]
  captureTime := 0
  rtpTimestamp := timestamp
  buffer := ⟨0, 6, 0⟩

/-- A picture, a failing push, sound, and another picture. -/
theorem pipeline_streams_tiny :
    let calls := (machine tinyCall).transcript
      [.pushVideoFrame (some (tinyPicture 3000)), .pushVideoFrame none, .forceKeyframe,
        .pushAudioFrame (some ⟨{}, [], 960, 0, 0⟩), .pushVideoFrame (some (tinyPicture 6000))]
    (sent .video calls).length = 2 ∧
      ((calls.flatMap fun call => call.2.sunk).filter fun packet => packet.ssrc = 7) =
        ((sent .video calls).map Prod.snd).flatten := by
  intro calls
  refine ⟨rfl, (@pipeline_streams _ _ tinyCall rfl .video _ rfl _).2.1 ?_⟩
  intro other foreign different isForeign
  cases other with
  | video => exact absurd rfl different
  | audio =>
      cases isForeign
      decide

end SendPipeline

end Vela
