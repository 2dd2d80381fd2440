import Vela.Foundation.Parts
import Vela.Media.ReceiveRouterSteps
import Vela.Network.TransparentDelivery

/-! # The receive pipeline

Two jitter buffers, each with a decoder and a sink. `pushPacket` runs on the receive
thread and `tick` on the render thread, so that packets are pushed between the pops
of a tick. -/

namespace Vela

open Foundation

namespace ReceivePipeline

structure Config where
  videoSsrc : BitVec 32 := 0
  audioSsrc : BitVec 32 := 0
  targetDelay : SteadyTime := 50000000

/-- The loop of a tick that the render thread is in. -/
inductive Draining where
  | video (now : SteadyTime)
  | audio (now : SteadyTime)
  deriving DecidableEq

inductive Event where
  | pushPacket (packet : RtpPacket) (arrival : SteadyTime)
  | tick (now : SteadyTime)
  /-- The thread in `tick` goes on to its next pop. -/
  | proceed

inductive Effect (codecs : Codecs) where
  | videoSink (frame : codecs.VideoFrame)
  | audioSink (frame : codecs.AudioFrame)

end ReceivePipeline

open ReceivePipeline in
structure ReceivePipeline (codecs : Codecs) where
  videoDecoder : Option codecs.VideoDecoder
  audioDecoder : Option codecs.AudioDecoder
  config : ReceivePipeline.Config
  videoSink : Bool
  audioSink : Bool
  videoJitter : JitterBuffer
  audioJitter : Option JitterBuffer
  working : Option Draining := none

namespace ReceivePipeline

variable {codecs : Codecs}

def videoJbConfig (delay : SteadyTime) : JitterBufferConfig where
  targetDelay := delay
  kind := .video
  videoCodec := .h264

def audioJbConfig (delay : SteadyTime) : JitterBufferConfig where
  targetDelay := delay
  kind := .audio
  audioCodec := .opus

def create (videoDecoder : Option codecs.VideoDecoder) (audioDecoder : Option codecs.AudioDecoder)
    (config : Config) (videoSink audioSink : Bool) : ReceivePipeline codecs where
  videoDecoder := videoDecoder
  audioDecoder := audioDecoder
  config := config
  videoSink := videoSink
  audioSink := audioSink
  videoJitter := .create codecs.frameSearch (videoJbConfig config.targetDelay)
  audioJitter :=
    if audioDecoder.isSome && config.audioSsrc != 0 then
      some (.create codecs.frameSearch (audioJbConfig config.targetDelay))
    else none

/-- Packets of unknown sources go to the video buffer. -/
def pushPacket (pipeline : ReceivePipeline codecs) (packet : RtpPacket) (arrival : SteadyTime) :
    ReceivePipeline codecs :=
  match pipeline.audioJitter with
  | some jitter =>
      if packet.ssrc = pipeline.config.audioSsrc then
        { pipeline with audioJitter := some (jitter.push packet arrival).1 }
      else { pipeline with videoJitter := (pipeline.videoJitter.push packet arrival).1 }
  | none => { pipeline with videoJitter := (pipeline.videoJitter.push packet arrival).1 }

/-- One turn of the loop over the video buffer. -/
def drainVideo (pipeline : ReceivePipeline codecs) (now : SteadyTime) :
    ReceivePipeline codecs × List (Effect codecs) :=
  match pipeline.videoDecoder with
  | none => ({ pipeline with working := some (.audio now) }, [])
  | some decoder =>
      match pipeline.videoJitter.pop now with
      | (videoJitter, none) => ({ pipeline with videoJitter, working := some (.audio now) }, [])
      | (videoJitter, some encoded) =>
          let (decoder, decoded) := codecs.decodeVideo decoder encoded
          ({ pipeline with videoJitter, videoDecoder := some decoder },
            match decoded with
            | .ok frame => if pipeline.videoSink then [.videoSink frame] else []
            | .error _ => [])

def drainAudio (pipeline : ReceivePipeline codecs) (now : SteadyTime) :
    ReceivePipeline codecs × List (Effect codecs) :=
  match pipeline.audioJitter, pipeline.audioDecoder with
  | some jitter, some decoder =>
      match jitter.pop now with
      | (jitter, none) => ({ pipeline with audioJitter := some jitter, working := none }, [])
      | (jitter, some encoded) =>
          let (decoder, decoded) := codecs.decodeAudio decoder encoded
          ({ pipeline with audioJitter := some jitter, audioDecoder := some decoder },
            match decoded with
            | .ok frame => if pipeline.audioSink then [.audioSink frame] else []
            | .error _ => [])
  | _, _ => ({ pipeline with working := none }, [])

def step (pipeline : ReceivePipeline codecs) :
    Event → ReceivePipeline codecs × List (Effect codecs)
  | .pushPacket packet arrival => (pipeline.pushPacket packet arrival, [])
  | .tick now =>
      -- There is one render thread, so that a tick begins when none is in progress.
      match pipeline.working with
      | none => ({ pipeline with working := some (.video now) }, [])
      | some _ => (pipeline, [])
  | .proceed =>
      match pipeline.working with
      | none => (pipeline, [])
      | some (.video now) => pipeline.drainVideo now
      | some (.audio now) => pipeline.drainAudio now

def machine (initial : ReceivePipeline codecs) :
    Machine (ReceivePipeline codecs) Event (List (Effect codecs)) where
  initial := initial
  step := step

end ReceivePipeline

/-! ## One medium by itself -/

/-- A jitter buffer whose frames a decoder takes. -/
structure Lane (Decoder : Type) where
  jitter : JitterBuffer
  decoder : Decoder

namespace Lane

variable {Decoder Item : Type} (decode : Decoder → EncodedFrame → Decoder × Result Item)

def step (lane : Lane Decoder) : JitterBuffer.Event → Lane Decoder × List Item
  | .push packet arrival => ({ lane with jitter := (lane.jitter.push packet arrival).1 }, [])
  | .pop now =>
      match lane.jitter.pop now with
      | (jitter, none) => ({ lane with jitter }, [])
      | (jitter, some encoded) =>
          ({ jitter, decoder := (decode lane.decoder encoded).1 },
            (decode lane.decoder encoded).2.toOption.toList)

def machine (search : FrameSearch) (config : JitterBufferConfig) (decoder : Decoder) :
    Machine (Lane Decoder) JitterBuffer.Event (List Item) where
  initial := { jitter := .create search config, decoder }
  step := step decode

def decoderAfter (decoder : Decoder) (frames : List EncodedFrame) : Decoder :=
  frames.foldl (fun decoder frame => (decode decoder frame).1) decoder

/-- What a decoder makes of frames, one after another. -/
def decodeAll : Decoder → List EncodedFrame → List Item
  | _, [] => []
  | decoder, frame :: rest =>
      (decode decoder frame).2.toOption.toList ++ decodeAll (decode decoder frame).1 rest

variable {decode}

theorem decodeAll_append (decoder : Decoder) (frames later : List EncodedFrame) :
    decodeAll decode decoder (frames ++ later) =
      decodeAll decode decoder frames ++
        decodeAll decode (decoderAfter decode decoder frames) later := by
  induction frames generalizing decoder with
  | nil => rfl
  | cons frame rest induction =>
      rw [List.cons_append, decodeAll, induction, decodeAll, List.append_assoc]
      rfl

theorem step_pop (lane : Lane Decoder) (now : SteadyTime) :
    lane.step decode (.pop now) =
      ({ jitter := (lane.jitter.pop now).1
         decoder := decoderAfter decode lane.decoder (lane.jitter.pop now).2.toList },
        decodeAll decode lane.decoder (lane.jitter.pop now).2.toList) := by
  rw [step]
  rcases lane.jitter.pop now with ⟨jitter, _ | encoded⟩
  · rfl
  · simp [decoderAfter, decodeAll]

/-- A lane decodes what its buffer returns. -/
theorem lane_run (search : FrameSearch) (config : JitterBufferConfig) (decoder : Decoder)
    (events : List JitterBuffer.Event) :
    (machine decode search config decoder).run events =
        { jitter := (JitterBuffer.machine search config).run events
          decoder := decoderAfter decode decoder (JitterBuffer.returned search config events) } ∧
      (machine decode search config decoder).produced events =
        decodeAll decode decoder (JitterBuffer.returned search config events) := by
  induction events using List.reverseRecOn with
  | nil => exact ⟨rfl, rfl⟩
  | append_singleton past event induction =>
      rcases induction with ⟨state, items⟩
      rw [Machine.run_snoc, Machine.produced_snoc, Machine.run_snoc, state, items]
      cases event with
      | push packet arrival =>
          rw [JitterBuffer.returned_push]
          exact ⟨rfl, List.append_nil _⟩
      | pop now =>
          have stepped : ∀ lane, (machine decode search config decoder).step lane (.pop now) = _ :=
            fun lane => lane.step_pop now
          rw [JitterBuffer.returned_pop, decodeAll_append, decoderAfter, decoderAfter,
            List.foldl_append, Machine.next, Machine.output, stepped]
          exact ⟨rfl, rfl⟩

end Lane

/-! ## The pipeline as two lanes -/

namespace ReceivePipeline

variable {codecs : Codecs}

def Effect.picture? : Effect codecs → Option codecs.VideoFrame
  | .videoSink frame => some frame
  | .audioSink _ => none

def Effect.sound? : Effect codecs → Option codecs.AudioFrame
  | .videoSink _ => none
  | .audioSink frame => some frame

def isAudio (pipeline : ReceivePipeline codecs) (packet : RtpPacket) : Bool :=
  pipeline.audioJitter.isSome && packet.ssrc == pipeline.config.audioSsrc

/-- What an event is to the video buffer of a pipeline that decodes video. -/
def videoShare (pipeline : ReceivePipeline codecs) : Event → List JitterBuffer.Event
  | .pushPacket packet arrival => if pipeline.isAudio packet then [] else [.push packet arrival]
  | .tick _ => []
  | .proceed =>
      match pipeline.working with
      | some (.video now) => [.pop now]
      | _ => []

def audioShare (pipeline : ReceivePipeline codecs) : Event → List JitterBuffer.Event
  | .pushPacket packet arrival => if pipeline.isAudio packet then [.push packet arrival] else []
  | .tick _ => []
  | .proceed =>
      match pipeline.working with
      | some (.audio now) => [.pop now]
      | _ => []

def videoLane (pipeline : ReceivePipeline codecs) : Option (Lane codecs.VideoDecoder) :=
  pipeline.videoDecoder.map fun decoder => { jitter := pipeline.videoJitter, decoder }

def audioLane (pipeline : ReceivePipeline codecs) : Option (Lane codecs.AudioDecoder) :=
  match pipeline.audioJitter, pipeline.audioDecoder with
  | some jitter, some decoder => some { jitter, decoder }
  | _, _ => none

variable {pipeline : ReceivePipeline codecs}

/-- A push is one to the buffer of its medium. -/
theorem pushPacket_cases (pipeline : ReceivePipeline codecs) (packet : RtpPacket)
    (arrival : SteadyTime) :
    (∃ jitter, pipeline.audioJitter = some jitter ∧ pipeline.isAudio packet = true ∧
      pipeline.pushPacket packet arrival =
        { pipeline with audioJitter := some (jitter.push packet arrival).1 }) ∨
    (pipeline.isAudio packet = false ∧
      pipeline.pushPacket packet arrival =
        { pipeline with videoJitter := (pipeline.videoJitter.push packet arrival).1 }) := by
  rw [pushPacket, isAudio]
  cases pipeline.audioJitter with
  | none => exact .inr ⟨rfl, rfl⟩
  | some jitter =>
      by_cases same : packet.ssrc = pipeline.config.audioSsrc
      · exact .inl ⟨jitter, rfl, by simpa using same, if_pos same⟩
      · exact .inr ⟨by simpa using same, if_neg same⟩

theorem videoLane_eq {lane : Lane codecs.VideoDecoder} (isLane : pipeline.videoLane = some lane) :
    pipeline.videoDecoder = some lane.decoder ∧ pipeline.videoJitter = lane.jitter := by
  rcases Option.map_eq_some_iff.mp isLane with ⟨decoder, isDecoder, rfl⟩
  exact ⟨isDecoder, rfl⟩

theorem audioLane_eq {lane : Lane codecs.AudioDecoder} (isLane : pipeline.audioLane = some lane) :
    pipeline.audioDecoder = some lane.decoder ∧ pipeline.audioJitter = some lane.jitter := by
  rw [audioLane] at isLane
  split at isLane
  · rename_i isJitter isDecoder
    cases isLane
    exact ⟨isDecoder, isJitter⟩
  · cases isLane

/-- The loops keep to their own medium. -/
theorem drainAudio_frame (pipeline : ReceivePipeline codecs) (now : SteadyTime) :
    (pipeline.drainAudio now).1.videoLane = pipeline.videoLane ∧
      (pipeline.drainAudio now).2.filterMap Effect.picture? = [] := by
  rw [drainAudio]
  split
  · split
    · exact ⟨rfl, rfl⟩
    · refine ⟨rfl, ?_⟩
      dsimp only
      split
      · split <;> rfl
      · rfl
  · exact ⟨rfl, rfl⟩

theorem drainVideo_frame (pipeline : ReceivePipeline codecs) (now : SteadyTime) :
    (pipeline.drainVideo now).1.audioLane = pipeline.audioLane ∧
      (pipeline.drainVideo now).2.filterMap Effect.sound? = [] := by
  rw [drainVideo]
  split
  · exact ⟨rfl, rfl⟩
  · split
    · exact ⟨rfl, rfl⟩
    · refine ⟨rfl, ?_⟩
      dsimp only
      split
      · split <;> rfl
      · rfl

/-- A turn of a loop is a pop of its lane. -/
theorem drainVideo_pop {lane : Lane codecs.VideoDecoder} (isLane : pipeline.videoLane = some lane)
    (now : SteadyTime) :
    (pipeline.drainVideo now).1.videoLane = some (lane.step codecs.decodeVideo (.pop now)).1 ∧
      (pipeline.drainVideo now).2.filterMap Effect.picture? =
        if pipeline.videoSink then (lane.step codecs.decodeVideo (.pop now)).2 else [] := by
  rcases videoLane_eq isLane with ⟨isDecoder, isJitter⟩
  rw [drainVideo, isDecoder, isJitter, Lane.step]
  dsimp only
  rcases lane.jitter.pop now with ⟨jitter, _ | encoded⟩
  · exact ⟨rfl, by simp⟩
  · refine ⟨rfl, ?_⟩
    dsimp only
    rcases (codecs.decodeVideo lane.decoder encoded).2 with error | frame
    · cases pipeline.videoSink <;> rfl
    · cases pipeline.videoSink <;> rfl

theorem drainAudio_pop {lane : Lane codecs.AudioDecoder} (isLane : pipeline.audioLane = some lane)
    (now : SteadyTime) :
    (pipeline.drainAudio now).1.audioLane = some (lane.step codecs.decodeAudio (.pop now)).1 ∧
      (pipeline.drainAudio now).2.filterMap Effect.sound? =
        if pipeline.audioSink then (lane.step codecs.decodeAudio (.pop now)).2 else [] := by
  rcases audioLane_eq isLane with ⟨isDecoder, isJitter⟩
  rw [drainAudio, isDecoder, isJitter, Lane.step]
  dsimp only
  rcases lane.jitter.pop now with ⟨jitter, _ | encoded⟩
  · exact ⟨rfl, by simp⟩
  · refine ⟨rfl, ?_⟩
    dsimp only
    rcases (codecs.decodeAudio lane.decoder encoded).2 with error | frame
    · cases pipeline.audioSink <;> rfl
    · cases pipeline.audioSink <;> rfl

/-- What a step does to the video, and what it gives to the sink of it. -/
theorem videoLane_step {lane : Lane codecs.VideoDecoder} (isLane : pipeline.videoLane = some lane)
    (config : JitterBufferConfig) (decoder : codecs.VideoDecoder) (event : Event) :
    (pipeline.step event).1.videoLane =
        some ((pipeline.videoShare event).foldl
          (Lane.machine codecs.decodeVideo codecs.frameSearch config decoder).next lane) ∧
      (pipeline.step event).2.filterMap Effect.picture? =
        if pipeline.videoSink then
          (Lane.machine codecs.decodeVideo codecs.frameSearch config decoder).producedFrom lane
            (pipeline.videoShare event)
        else [] := by
  rcases videoLane_eq isLane with ⟨isDecoder, isJitter⟩
  cases event with
  | pushPacket packet arrival =>
      rw [step, videoShare]
      rcases pipeline.pushPacket_cases packet arrival with
        ⟨jitter, _, audio, pushed⟩ | ⟨notAudio, pushed⟩
      · rw [pushed, audio]
        exact ⟨isLane, by simp⟩
      · rw [pushed, notAudio, videoLane, isDecoder, isJitter]
        exact ⟨rfl, by simp [Machine.output, Lane.machine, Lane.step]⟩
  | tick now =>
      rw [step]
      cases pipeline.working <;> exact ⟨isLane, by simp [videoShare]⟩
  | proceed =>
      rw [step, videoShare]
      rcases pipeline.working with _ | now | now
      · exact ⟨isLane, by simp⟩
      · have popped := drainVideo_pop isLane now
        rw [Machine.producedFrom_cons, Machine.producedFrom_nil, List.append_nil]
        exact popped
      · have kept := pipeline.drainAudio_frame now
        exact ⟨kept.1.trans isLane, kept.2.trans (by simp)⟩

theorem audioLane_step {lane : Lane codecs.AudioDecoder} (isLane : pipeline.audioLane = some lane)
    (config : JitterBufferConfig) (decoder : codecs.AudioDecoder) (event : Event) :
    (pipeline.step event).1.audioLane =
        some ((pipeline.audioShare event).foldl
          (Lane.machine codecs.decodeAudio codecs.frameSearch config decoder).next lane) ∧
      (pipeline.step event).2.filterMap Effect.sound? =
        if pipeline.audioSink then
          (Lane.machine codecs.decodeAudio codecs.frameSearch config decoder).producedFrom lane
            (pipeline.audioShare event)
        else [] := by
  rcases audioLane_eq isLane with ⟨isDecoder, isJitter⟩
  cases event with
  | pushPacket packet arrival =>
      rw [step, audioShare]
      rcases pipeline.pushPacket_cases packet arrival with
        ⟨jitter, sameJitter, audio, pushed⟩ | ⟨notAudio, pushed⟩
      · rw [isJitter] at sameJitter
        cases sameJitter
        rw [pushed, audio, audioLane, isDecoder]
        exact ⟨rfl, by simp [Machine.output, Lane.machine, Lane.step]⟩
      · rw [pushed, notAudio]
        exact ⟨isLane, by simp⟩
  | tick now =>
      rw [step]
      cases pipeline.working <;> exact ⟨isLane, by simp [audioShare]⟩
  | proceed =>
      rw [step, audioShare]
      rcases pipeline.working with _ | now | now
      · exact ⟨isLane, by simp⟩
      · have kept := pipeline.drainVideo_frame now
        exact ⟨kept.1.trans isLane, kept.2.trans (by simp)⟩
      · have popped := drainAudio_pop isLane now
        rw [Machine.producedFrom_cons, Machine.producedFrom_nil, List.append_nil]
        exact popped

/-- What was wired up at the beginning stays so. -/
theorem wiring_step (pipeline : ReceivePipeline codecs) (event : Event) :
    (pipeline.step event).1.config = pipeline.config ∧
      (pipeline.step event).1.videoSink = pipeline.videoSink ∧
      (pipeline.step event).1.audioSink = pipeline.audioSink := by
  cases event with
  | pushPacket packet arrival =>
      rcases pipeline.pushPacket_cases packet arrival with ⟨_, _, _, pushed⟩ | ⟨_, pushed⟩
      · rw [step, pushed]
        exact ⟨rfl, rfl, rfl⟩
      · rw [step, pushed]
        exact ⟨rfl, rfl, rfl⟩
  | tick now =>
      rw [step]
      cases pipeline.working <;> exact ⟨rfl, rfl, rfl⟩
  | proceed =>
      rw [step]
      rcases pipeline.working with _ | now | now
      · exact ⟨rfl, rfl, rfl⟩
      · dsimp only
        rw [drainVideo]
        split
        · exact ⟨rfl, rfl, rfl⟩
        · split <;> exact ⟨rfl, rfl, rfl⟩
      · dsimp only
        rw [drainAudio]
        split
        · split <;> exact ⟨rfl, rfl, rfl⟩
        · exact ⟨rfl, rfl, rfl⟩

theorem wiring_run (initial : ReceivePipeline codecs) (events : List Event) :
    ((machine initial).run events).config = initial.config ∧
      ((machine initial).run events).videoSink = initial.videoSink ∧
      ((machine initial).run events).audioSink = initial.audioSink := by
  apply @Machine.invariant _ _ _ (machine initial) fun pipeline =>
    pipeline.config = initial.config ∧ pipeline.videoSink = initial.videoSink ∧
      pipeline.audioSink = initial.audioSink
  · exact ⟨rfl, rfl, rfl⟩
  · intro pipeline event same
    rcases pipeline.wiring_step event with ⟨config, videoSink, audioSink⟩
    exact ⟨config.trans same.1, videoSink.trans same.2.1, audioSink.trans same.2.2⟩

/-! ## A tick returns -/

/-- A bound on the turns that a tick has still to take. -/
def remaining (pipeline : ReceivePipeline codecs) : Nat :=
  let audioFrames := (pipeline.audioJitter.map JitterBuffer.frameCount).getD 0
  match pipeline.working with
  | none => 0
  | some (.video _) => pipeline.videoJitter.frameCount + audioFrames + 2
  | some (.audio _) => audioFrames + 1

theorem remaining_drainVideo {now : SteadyTime} (working : pipeline.working = some (.video now)) :
    (pipeline.drainVideo now).1.remaining < pipeline.remaining := by
  rw [drainVideo]
  cases pipeline.videoDecoder with
  | none =>
      simp only [remaining, working]
      omega
  | some decoder =>
      have outcome := pipeline.videoJitter.pop_outcome now
      rcases popped : pipeline.videoJitter.pop now with ⟨jitter, _ | encoded⟩
      · simp only [remaining, working]
        omega
      · rw [popped] at outcome
        simp only [remaining, working]
        omega

theorem remaining_drainAudio {now : SteadyTime} (working : pipeline.working = some (.audio now)) :
    (pipeline.drainAudio now).1.remaining < pipeline.remaining := by
  rw [drainAudio]
  split
  · rename_i jitter decoder isJitter isDecoder
    have outcome := jitter.pop_outcome now
    rcases popped : jitter.pop now with ⟨after, _ | encoded⟩
    · simp only [remaining, working]
      omega
    · rw [popped] at outcome
      simpa [remaining, working, isJitter] using outcome
  · simp only [remaining, working]
    omega

theorem remaining_proceed (busy : pipeline.working ≠ none) :
    (pipeline.step .proceed).1.remaining < pipeline.remaining := by
  rcases working : pipeline.working with _ | now | now
  · exact absurd working busy
  · rw [step, working]
    exact remaining_drainVideo working
  · rw [step, working]
    exact remaining_drainAudio working

/-- However far a tick has come, it returns. -/
theorem tick_returns (initial : ReceivePipeline codecs) (events : List Event) :
    ∃ count, ((machine initial).run (events ++ List.replicate count .proceed)).working = none :=
  @Machine.comes_to_rest _ _ _ (machine initial) (fun pipeline => pipeline.working = none) .proceed
    remaining (fun _ busy => remaining_proceed busy) events

/-! ## Runs -/

/-- The events of the video buffer in a run. -/
def videoEvents (initial : ReceivePipeline codecs)
    (events : List Event) : List JitterBuffer.Event :=
  (machine initial).shares videoShare events

def audioEvents (initial : ReceivePipeline codecs)
    (events : List Event) : List JitterBuffer.Event :=
  (machine initial).shares audioShare events

/-- What the video sink has been given. -/
def pictures (initial : ReceivePipeline codecs) (events : List Event) : List codecs.VideoFrame :=
  ((machine initial).produced events).filterMap Effect.picture?

def sounds (initial : ReceivePipeline codecs) (events : List Event) : List codecs.AudioFrame :=
  ((machine initial).produced events).filterMap Effect.sound?

theorem ite_append {Item : Type} (condition : Bool) (first second : List Item) :
    (if condition then first else []) ++ (if condition then second else []) =
      if condition then first ++ second else [] := by
  cases condition <;> rfl

/-- The video of a pipeline is a lane by itself. -/
theorem video_run (decoder : codecs.VideoDecoder) (audioDecoder : Option codecs.AudioDecoder)
    (config : Config) (videoSink audioSink : Bool) (events : List Event) :
    let initial := create (some decoder) audioDecoder config videoSink audioSink
    let lane := Lane.machine codecs.decodeVideo codecs.frameSearch
      (videoJbConfig config.targetDelay) decoder
    ((machine initial).run events).videoLane = some (lane.run (videoEvents initial events)) ∧
      pictures initial events =
        if videoSink then lane.produced (videoEvents initial events) else [] := by
  intro initial lane
  induction events using List.reverseRecOn with
  | nil => exact ⟨rfl, (ite_self _).symm⟩
  | append_singleton past event induction =>
      rcases induction with ⟨isLane, shown⟩
      have stepped := videoLane_step isLane (videoJbConfig config.targetDelay) decoder event
      have sink : ((machine initial).run past).videoSink = videoSink :=
        (wiring_run initial past).2.1
      rw [sink] at stepped
      rw [videoEvents, Machine.shares_snoc, Machine.run_snoc, Machine.run_append,
        Machine.produced_append, pictures, Machine.produced_snoc, List.filterMap_append]
      refine ⟨stepped.1, ?_⟩
      rw [← ite_append]
      exact congrArg₂ (· ++ ·) shown stepped.2

theorem audio_run (videoDecoder : Option codecs.VideoDecoder) (decoder : codecs.AudioDecoder)
    {config : Config} (source : config.audioSsrc ≠ 0) (videoSink audioSink : Bool)
    (events : List Event) :
    let initial := create videoDecoder (some decoder) config videoSink audioSink
    let lane := Lane.machine codecs.decodeAudio codecs.frameSearch
      (audioJbConfig config.targetDelay) decoder
    ((machine initial).run events).audioLane = some (lane.run (audioEvents initial events)) ∧
      sounds initial events =
        if audioSink then lane.produced (audioEvents initial events) else [] := by
  intro initial lane
  induction events using List.reverseRecOn with
  | nil =>
      refine ⟨?_, (ite_self _).symm⟩
      have present : (Option.isSome (some decoder) && config.audioSsrc != 0) = true := by
        simpa using source
      change initial.audioLane = _
      simp only [audioLane, initial, create, if_pos present]
      rfl
  | append_singleton past event induction =>
      rcases induction with ⟨isLane, shown⟩
      have stepped := audioLane_step isLane (audioJbConfig config.targetDelay) decoder event
      have sink : ((machine initial).run past).audioSink = audioSink :=
        (wiring_run initial past).2.2
      rw [sink] at stepped
      rw [audioEvents, Machine.shares_snoc, Machine.run_snoc, Machine.run_append,
        Machine.produced_append, sounds, Machine.produced_snoc, List.filterMap_append]
      refine ⟨stepped.1, ?_⟩
      rw [← ite_append]
      exact congrArg₂ (· ++ ·) shown stepped.2

end ReceivePipeline

end Vela
