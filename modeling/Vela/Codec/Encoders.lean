import Vela.Audio.AudioPlayback
import Vela.Common.VideoFrame

/-! # The encoders

What the wrappers around the codec libraries check, keep and pass on. The
libraries themselves are parameters. A keyframe that was asked for is forced with
the next picture that reaches the library. -/

namespace Vela

open Foundation

/-- A frame without a buffer is none at all. -/
def VideoFrame.valid (frame : VideoFrame) : Bool :=
  frame.format != .unknown && decide (0 < frame.width) && decide (0 < frame.height)

/-! ## Video -/

namespace VideoEncoder

structure Config where
  width : Int := 0
  height : Int := 0
  fps : Int := 30
  bitrateKbps : Int := 2000
  deriving DecidableEq, Repr

end VideoEncoder

/-- What is handed to `avcodec_send_frame`. -/
structure AvFrame where
  planes : Vector Plane 3
  buffer : FramePool.Buffer
  pts : Nat
  /-- The picture type is I, and the key flag is set. -/
  key : Bool
  deriving DecidableEq, Repr

structure AvPacket where
  data : Bytes
  key : Bool
  deriving DecidableEq, Repr

/-- The library behind the encoder: opening a context, its rates, the two halves of
encoding a picture. A packet may fail to come. -/
structure VideoLibrary where
  Context : Type
  open2 : VideoEncoder.Config → Result Context
  setRates : Context → Int → Context
  sendFrame : Context → AvFrame → Context × Bool
  receivePacket : Context → Context × Option AvPacket

structure VideoEncoder (library : VideoLibrary) where
  ctx : Option library.Context := none
  config : VideoEncoder.Config := {}
  /-- The pictures handed to the library. -/
  pts : Nat := 0
  keyframeForced : Bool := false

namespace VideoEncoder

variable {library : VideoLibrary}

/-- Positive, and for 4:2:0 even. -/
def Config.isUsable (config : Config) : Bool :=
  !(decide (config.width ≤ 0) || decide (config.height ≤ 0) || decide (config.fps ≤ 0) ||
      decide (config.bitrateKbps ≤ 0)) &&
    !(decide (config.width % 2 ≠ 0) || decide (config.height % 2 ≠ 0))

def openWith (encoder : VideoEncoder library) (config : Config) : VideoEncoder library × Status :=
  if !config.isUsable then (encoder, .error .invalidArgument)
  else
    match library.open2 config with
    | .error error =>
      ({ encoder with ctx := none, pts := 0, keyframeForced := false }, .error error)
    | .ok ctx => ({ ctx := some ctx, config, pts := 0, keyframeForced := false }, .ok ())

def forceKeyframe (encoder : VideoEncoder library) : VideoEncoder library :=
  { encoder with keyframeForced := true }

def setBitrate (encoder : VideoEncoder library) (bitrateKbps : Int) : VideoEncoder library :=
  match encoder.ctx with
  | none => encoder
  | some ctx =>
      if bitrateKbps ≤ 0 then encoder
      else
        { encoder with
          ctx := some (library.setRates ctx (bitrateKbps * 1000))
          config := { encoder.config with bitrateKbps } }

/-- Whether a picture is handed to the library, or why not. -/
def accepts (encoder : VideoEncoder library) (input : Option VideoFrame) :
    Result (library.Context × VideoFrame) :=
  match encoder.ctx with
  | none => .error .notInitialized
  | some ctx =>
      match input with
      | none => .error .invalidArgument
      | some frame =>
          if !frame.valid || frame.format != .i420 then .error .invalidArgument
          else if frame.width ≠ encoder.config.width ∨ frame.height ≠ encoder.config.height then
            .error .invalidArgument
          else .ok (ctx, frame)

def submission (encoder : VideoEncoder library) (frame : VideoFrame) : AvFrame where
  planes := frame.planes
  buffer := frame.buffer
  pts := encoder.pts
  key := encoder.keyframeForced

/-- The frame is counted, and the forced keyframe done with, before the library has
taken the picture. -/
def encode (encoder : VideoEncoder library) (input : Option VideoFrame) :
    VideoEncoder library × Result EncodedFrame :=
  match encoder.accepts input with
  | .error error => (encoder, .error error)
  | .ok (ctx, frame) =>
      let (ctx, taken) := library.sendFrame ctx (encoder.submission frame)
      let encoder := { encoder with
        ctx := some ctx, pts := encoder.pts + 1, keyframeForced := false }
      if !taken then (encoder, .error .codecError)
      else
        let (ctx, packet) := library.receivePacket ctx
        let encoder := { encoder with ctx := some ctx }
        match packet with
        | none => (encoder, .error .codecError)
        | some packet =>
            (encoder, .ok {
              kind := .video
              videoCodec := .h264
              keyframe := packet.key
              rtpTimestamp := frame.rtpTimestamp
              captureTime := frame.captureTime
              payload := packet.data })

/-- What comes out has the times of the picture that went in. -/
theorem encode_ok {encoder after : VideoEncoder library} {input : Option VideoFrame}
    {encoded : EncodedFrame} (succeeds : encoder.encode input = (after, .ok encoded)) :
    ∃ frame, input = some frame ∧ encoded.kind = .video ∧ encoded.videoCodec = .h264 ∧
      encoded.rtpTimestamp = frame.rtpTimestamp ∧ encoded.captureTime = frame.captureTime := by
  rw [encode] at succeeds
  split at succeeds
  · cases succeeds
  · rename_i ctx frame accepted
    have isInput : input = some frame := by
      rw [accepts] at accepted
      split at accepted
      · cases accepted
      · split at accepted
        · cases accepted
        · split at accepted
          · cases accepted
          · split at accepted
            · cases accepted
            · cases accepted
              rfl
    dsimp only at succeeds
    split at succeeds
    · cases succeeds
    · split at succeeds
      · cases succeeds
      · cases succeeds
        exact ⟨frame, isInput, rfl, rfl, rfl, rfl⟩

end VideoEncoder

/-! ## Audio -/

/-- The library behind the audio encoder: opening, and the bytes of one packet. -/
structure AudioLibrary where
  Encoder : Type
  create : AudioFormat → Int → Option Encoder
  encode : Encoder → List (BitVec 16) → Encoder × Option Bytes

structure AudioEncoder (library : AudioLibrary) where
  enc : Option library.Encoder := none
  format : AudioFormat := {}

namespace AudioEncoder

variable {library : AudioLibrary}

/-- 2.5, 5, 10, 20, 40 and 60 ms at 48 kHz. -/
def isValidFrameSize (samplesPerChannel : Int) : Bool :=
  [120, 240, 480, 960, 1920, 2880].contains samplesPerChannel

def openWith (encoder : AudioEncoder library) (format : AudioFormat) (bitrateBps : Int) :
    AudioEncoder library × Status :=
  if format.sampleRateHz ≠ 48000 then (encoder, .error .unsupported)
  else if format.channels ≠ 1 ∧ format.channels ≠ 2 then (encoder, .error .invalidArgument)
  else if bitrateBps ≤ 0 then (encoder, .error .invalidArgument)
  else
    match library.create format bitrateBps with
    | none => ({ encoder with enc := none }, .error .codecError)
    | some enc => ({ enc := some enc, format }, .ok ())

def encode (encoder : AudioEncoder library) (input : Option AudioFrame) :
    AudioEncoder library × Result EncodedFrame :=
  match encoder.enc with
  | none => (encoder, .error .notInitialized)
  | some enc =>
      match input with
      | none => (encoder, .error .invalidArgument)
      | some frame =>
          if !frame.valid then (encoder, .error .invalidArgument)
          else if frame.format.sampleRateHz ≠ encoder.format.sampleRateHz ∨
              frame.format.channels ≠ encoder.format.channels then
            (encoder, .error .invalidArgument)
          else if !isValidFrameSize frame.sampleCount then (encoder, .error .invalidArgument)
          else
            let (enc, packet) := library.encode enc
              (frame.samples.take (frame.sampleCount.toNat * frame.format.channels.toNat))
            let encoder := { encoder with enc := some enc }
            match packet with
            | none => (encoder, .error .codecError)
            | some bytes =>
                (encoder, .ok {
                  kind := .audio
                  audioCodec := .opus
                  rtpTimestamp := frame.rtpTimestamp
                  captureTime := frame.captureTime
                  payload := bytes })

theorem encode_ok {encoder after : AudioEncoder library} {input : Option AudioFrame}
    {encoded : EncodedFrame} (succeeds : encoder.encode input = (after, .ok encoded)) :
    ∃ frame, input = some frame ∧ encoded.kind = .audio ∧ encoded.audioCodec = .opus ∧
      encoded.rtpTimestamp = frame.rtpTimestamp ∧ encoded.captureTime = frame.captureTime := by
  rw [encode] at succeeds
  split at succeeds
  · cases succeeds
  · split at succeeds
    · cases succeeds
    · rename_i frame
      split at succeeds
      · cases succeeds
      · split at succeeds
        · cases succeeds
        · split at succeeds
          · cases succeeds
          · dsimp only at succeeds
            split at succeeds
            · cases succeeds
            · cases succeeds
              exact ⟨frame, rfl, rfl, rfl, rfl, rfl⟩

end AudioEncoder

end Vela
