import Vela.Foundation.Parts
import Vela.Media.ReceiveRouterSteps

/-! # A receiver with one stream

What the receive router is for, stated for one SSRC: a jitter buffer, a decoder,
and nothing else that could get in their way. A tick decodes and delivers at
once. -/

namespace Vela

open Foundation

namespace JitterBuffer

/-- Pop until nothing is ready, at most `steps` times. -/
def popReady (now : SteadyTime) : Nat → JitterBuffer → JitterBuffer × List EncodedFrame
  | 0, buffer => (buffer, [])
  | steps + 1, buffer =>
      match buffer.pop now with
      | (after, none) => (after, [])
      | (after, some frame) =>
          ((popReady now steps after).1, frame :: (popReady now steps after).2)

def popAll (buffer : JitterBuffer) (now : SteadyTime) : JitterBuffer × List EncodedFrame :=
  popReady now (buffer.frameCount + 1) buffer

/-- The bound never ends the popping: nothing more is ready. -/
theorem popReady_exhausts (now : SteadyTime) (steps : Nat) (buffer : JitterBuffer)
    (enough : buffer.frameCount < steps) :
    (popReady now steps buffer).1.pop now = ((popReady now steps buffer).1, none) := by
  induction steps generalizing buffer with
  | zero => omega
  | succ steps induction =>
      have outcome := buffer.pop_outcome now
      rw [popReady]
      split
      · rename_i after popped
        rw [popped] at outcome
        exact outcome
      · rename_i after frame popped
        rw [popped] at outcome
        dsimp only at outcome ⊢
        exact induction after (by omega)

theorem popAll_exhausts (buffer : JitterBuffer) (now : SteadyTime) :
    (buffer.popAll now).1.pop now = ((buffer.popAll now).1, none) :=
  popReady_exhausts now _ buffer (Nat.lt_succ_self _)

end JitterBuffer

/-- The decoder of one stream; a video stream is announced with its first frame. -/
inductive LoneDecoder (codecs : Codecs) where
  | video (decoder : codecs.VideoDecoder) (announced : Bool)
  | audio (decoder : codecs.AudioDecoder)

structure LoneReceiver (codecs : Codecs) where
  jitter : JitterBuffer
  decoder : LoneDecoder codecs
  lastPacket : SteadyTime

namespace LoneReceiver

variable {codecs : Codecs}

/-- What the application hears of one SSRC. -/
inductive Heard (codecs : Codecs) where
  | streamAdded
  | picture (frame : codecs.VideoFrame)
  | streamRemoved
  | sound (frame : codecs.AudioFrame)

inductive Event where
  | packet (packet : RtpPacket) (arrival : SteadyTime)
  | tick (now : SteadyTime)

/-- The first packet decides what the stream carries. -/
def openFor (config : ReceiveRouter.Config) (packet : RtpPacket) : LoneReceiver codecs :=
  if packet.payloadType = config.audioPayloadType then
    { jitter := .create codecs.frameSearch { targetDelay := config.targetDelay, kind := .audio }
      decoder := .audio codecs.openAudio
      lastPacket := 0 }
  else
    { jitter := .create codecs.frameSearch { targetDelay := config.targetDelay, kind := .video }
      decoder := .video codecs.openVideo false
      lastPacket := 0 }

def take (receiver : LoneReceiver codecs) (packet : RtpPacket) (arrival : SteadyTime) :
    LoneReceiver codecs :=
  { receiver with jitter := (receiver.jitter.push packet arrival).1, lastPacket := arrival }

/-- A frame that does not decode is heard nothing of. -/
def decode (receiver : LoneReceiver codecs) (frame : EncodedFrame) :
    LoneReceiver codecs × List (Heard codecs) :=
  match receiver.decoder with
  | .video decoder announced =>
      ({ receiver with decoder := .video (codecs.decodeVideo decoder frame).1 announced },
        match (codecs.decodeVideo decoder frame).2 with
        | .ok picture => [.picture picture]
        | .error _ => [])
  | .audio decoder =>
      ({ receiver with decoder := .audio (codecs.decodeAudio decoder frame).1 },
        match (codecs.decodeAudio decoder frame).2 with
        | .ok sound => [.sound sound]
        | .error _ => [])

def decodeAll : LoneReceiver codecs → List EncodedFrame → LoneReceiver codecs × List (Heard codecs)
  | receiver, [] => (receiver, [])
  | receiver, frame :: rest =>
      ((decodeAll (receiver.decode frame).1 rest).1,
        (receiver.decode frame).2 ++ (decodeAll (receiver.decode frame).1 rest).2)

/-- The announcement that goes before the first frame of a video stream. -/
def announce (receiver : LoneReceiver codecs) : LoneReceiver codecs × List (Heard codecs) :=
  match receiver.decoder with
  | .video decoder false =>
      ({ receiver with decoder := .video decoder true }, [.streamAdded])
  | _ => (receiver, [])

/-- The farewell to a stream that is given up. -/
def farewell (receiver : LoneReceiver codecs) : List (Heard codecs) :=
  match receiver.decoder with
  | .video _ true => [.streamRemoved]
  | _ => []

def tick (config : ReceiveRouter.Config) (now : SteadyTime) (receiver : LoneReceiver codecs) :
    Option (LoneReceiver codecs) × List (Heard codecs) :=
  if now - receiver.lastPacket > config.streamTimeout then (none, receiver.farewell)
  else
    let (jitter, frames) := receiver.jitter.popAll now
    let receiver := { receiver with jitter }
    if frames.isEmpty then (some receiver, [])
    else
      let (receiver, told) := receiver.announce
      let (receiver, heard) := receiver.decodeAll frames
      (some receiver, told ++ heard)

def step (config : ReceiveRouter.Config) :
    Option (LoneReceiver codecs) → Event → Option (LoneReceiver codecs) × List (Heard codecs)
  | some receiver, .packet packet arrival => (some (receiver.take packet arrival), [])
  | none, .packet packet arrival => (some ((openFor config packet).take packet arrival), [])
  | some receiver, .tick now => receiver.tick config now
  | none, .tick _ => (none, [])

/-- Whether there is a callback, or a playback, for what is heard. -/
def audible (callbacks : ReceiveRouter.Callbacks) (playback : Bool) : Heard codecs → Bool
  | .streamAdded => callbacks.onVideoStreamAdded
  | .picture _ => callbacks.onVideoFrame
  | .streamRemoved => callbacks.onVideoStreamRemoved
  | .sound _ => playback

def machine (config : ReceiveRouter.Config) (callbacks : ReceiveRouter.Callbacks)
    (playback : Bool) :
    Machine (Option (LoneReceiver codecs)) Event (List (Heard codecs)) where
  initial := none
  step := fun receiver event =>
    ((step config receiver event).1,
      (step config receiver event).2.filter (audible callbacks playback))

theorem decodeAll_append (receiver : LoneReceiver codecs) (frames later : List EncodedFrame) :
    receiver.decodeAll (frames ++ later) =
      (((receiver.decodeAll frames).1.decodeAll later).1,
        (receiver.decodeAll frames).2 ++ ((receiver.decodeAll frames).1.decodeAll later).2) := by
  induction frames generalizing receiver with
  | nil => rfl
  | cons frame rest induction => simp [decodeAll, induction]

/-- Taking a packet and decoding a frame do not get in each other's way. -/
theorem decode_take (receiver : LoneReceiver codecs) (packet : RtpPacket) (arrival : SteadyTime)
    (frame : EncodedFrame) :
    (receiver.take packet arrival).decode frame =
      ((receiver.decode frame).1.take packet arrival, (receiver.decode frame).2) := by
  rcases receiver with ⟨jitter, decoder, lastPacket⟩
  cases decoder <;> rfl

end LoneReceiver

end Vela
