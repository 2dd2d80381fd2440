import Vela.Network.JitterBuffer

/-! # The receive router

One inbound RTP stream fanned out by SSRC. `pushPacket` runs on the transport
thread and `tick` on the GUI thread. A tick reads the streams under the lock and
fires the callbacks after releasing it, so packets are pushed between its
callbacks. -/

namespace Vela

open Foundation

/-- The libraries behind a receiver: what `open` leaves in a decoder, what a decoder
makes of an access unit, and what `std::map` finds in a jitter buffer where that is
left open. -/
structure Codecs where
  VideoDecoder : Type
  VideoFrame : Type
  AudioDecoder : Type
  AudioFrame : Type
  openVideo : VideoDecoder
  decodeVideo : VideoDecoder → EncodedFrame → VideoDecoder × Result VideoFrame
  openAudio : AudioDecoder
  decodeAudio : AudioDecoder → EncodedFrame → AudioDecoder × Result AudioFrame
  frameSearch : FrameSearch := .linear _

/-- The order of `std::map` on SSRCs. -/
def ssrcKeyLess (a b : BitVec 32) : Bool := decide (a < b)

namespace ReceiveRouter

structure Config where
  audioPayloadType : BitVec 8 := 111
  targetDelay : SteadyTime := 50000000
  streamTimeout : SteadyTime := 3000000000

/-- Which callbacks are set. -/
structure Callbacks where
  onVideoFrame : Bool
  onVideoStreamAdded : Bool
  onVideoStreamRemoved : Bool

/-- One SSRC's stream. The number tells allocated streams apart. -/
structure Stream (codecs : Codecs) where
  number : Nat
  video : Bool
  jitter : JitterBuffer
  vdec : Option codecs.VideoDecoder
  adec : Option codecs.AudioDecoder
  announced : Bool := false
  lastPacket : SteadyTime := 0

/-- What a tick has pulled from one stream, whose number stands for the pointers
to its decoders. -/
structure Ready where
  ssrc : BitVec 32
  video : Bool
  announce : Bool
  stream : Nat
  frames : List EncodedFrame

/-- A video stream that was reaped. -/
structure Removal where
  ssrc : BitVec 32
  stream : Nat

/-- What a tick has still to do outside the lock. -/
structure Tick where
  ready : List Ready := []
  removedVideo : List Removal := []

/-- A call of one of the callbacks. -/
inductive Callback (codecs : Codecs) where
  | onVideoFrame (ssrc : BitVec 32) (frame : codecs.VideoFrame)
  | onVideoStreamAdded (ssrc : BitVec 32)
  | onVideoStreamRemoved (ssrc : BitVec 32)

inductive Effect (codecs : Codecs) where
  | created (stream : Nat) (ssrc : BitVec 32) (video : Bool)
  | fired (stream : Nat) (callback : Callback codecs)
  | enqueue (stream : Nat) (frame : codecs.AudioFrame)
  /-- A decoder was used that is gone, or was never there. -/
  | dangling (stream : Nat)

inductive Event where
  | pushPacket (packet : RtpPacket) (arrival : SteadyTime)
  | tick (now : SteadyTime)
  /-- The thread in `tick` goes on to its next decode or callback. -/
  | proceed

end ReceiveRouter

open ReceiveRouter in
structure ReceiveRouter (codecs : Codecs) where
  config : ReceiveRouter.Config
  callbacks : ReceiveRouter.Callbacks
  playback : Bool
  streams : OrderedMap (BitVec 32) (Stream codecs) ssrcKeyLess := .empty
  allocated : Nat := 0
  working : Tick := {}

namespace ReceiveRouter

variable {codecs : Codecs}

def create (config : Config) (callbacks : Callbacks) (playback : Bool) : ReceiveRouter codecs :=
  { config, callbacks, playback }

/-! ## Pushing -/

def makeJbConfig (video : Bool) (delay : SteadyTime) : JitterBufferConfig where
  targetDelay := delay
  kind := if video then .video else .audio
  videoCodec := .h264
  audioCodec := .opus

/-- The kind of a stream is decided by the payload type of its first packet. -/
def newStream (router : ReceiveRouter codecs) (packet : RtpPacket) : Stream codecs :=
  let isAudio := packet.payloadType == router.config.audioPayloadType
  { number := router.allocated
    video := !isAudio
    jitter := .create codecs.frameSearch (makeJbConfig (!isAudio) router.config.targetDelay)
    vdec := if isAudio then none else some codecs.openVideo
    adec := if isAudio then some codecs.openAudio else none }

def Stream.feed (stream : Stream codecs) (packet : RtpPacket) (arrival : SteadyTime) :
    Stream codecs :=
  { stream with
    lastPacket := arrival
    jitter := (stream.jitter.push packet arrival).1 }

def pushPacket (router : ReceiveRouter codecs) (packet : RtpPacket) (arrival : SteadyTime) :
    ReceiveRouter codecs × List (Effect codecs) :=
  match router.streams.find? packet.ssrc with
  | some stream =>
      ({ router with streams := router.streams.store packet.ssrc (stream.feed packet arrival) }, [])
  | none =>
      let stream := router.newStream packet
      ({ router with
          streams := router.streams.store packet.ssrc (stream.feed packet arrival)
          allocated := router.allocated + 1 },
        [.created stream.number packet.ssrc stream.video])

/-! ## A tick, under the lock -/

/-- The loop that pops what is ready. Each frame it gets is one less in the jitter
buffer, which bounds the steps. -/
def drain (now : SteadyTime) : Nat → Stream codecs → Ready → Stream codecs × Ready
  | 0, stream, ready => (stream, ready)
  | steps + 1, stream, ready =>
      match stream.jitter.pop now with
      | (jitter, none) => ({ stream with jitter }, ready)
      | (jitter, some frame) =>
          if stream.video && !stream.announced then
            drain now steps { stream with jitter, announced := true }
              { ready with announce := true, frames := ready.frames ++ [frame] }
          else
            drain now steps { stream with jitter }
              { ready with frames := ready.frames ++ [frame] }

/-- One round of the loop over the streams: the stream that stays in the map, and
what is left to do for it. -/
def visit (config : Config) (now : SteadyTime) (ssrc : BitVec 32) (stream : Stream codecs) :
    Option (Stream codecs) × Tick :=
  if now - stream.lastPacket > config.streamTimeout then
    (none,
      { removedVideo :=
          if stream.video && stream.announced then [⟨ssrc, stream.number⟩] else [] })
  else
    let (stream, ready) := drain now (stream.jitter.frameCount + 1) stream
      { ssrc, video := stream.video, announce := false, stream := stream.number, frames := [] }
    (some stream, { ready := if ready.frames.isEmpty then [] else [ready] })

/-- The streams that stay, in their order. -/
def kept (config : Config) (now : SteadyTime) (entries : List (BitVec 32 × Stream codecs)) :
    List (BitVec 32 × Stream codecs) :=
  entries.filterMap fun (ssrc, stream) => (visit config now ssrc stream).1.map fun stays =>
    (ssrc, stays)

def sweep (config : Config) (now : SteadyTime) (entries : List (BitVec 32 × Stream codecs)) :
    Tick where
  ready := entries.flatMap fun (ssrc, stream) => (visit config now ssrc stream).2.ready
  removedVideo :=
    entries.flatMap fun (ssrc, stream) => (visit config now ssrc stream).2.removedVideo

/-- Ticks run on one thread: a new one begins when the last has returned. -/
def tick (router : ReceiveRouter codecs) (now : SteadyTime) : ReceiveRouter codecs :=
  match router.working with
  | { ready := [], removedVideo := [] } =>
      { router with
        streams := router.streams.leave (kept router.config now router.streams.entries)
        working := sweep router.config now router.streams.entries }
  | _ => router

/-! ## A tick, after the lock -/

def Callbacks.handles (callbacks : Callbacks) : Callback codecs → Bool
  | .onVideoFrame _ _ => callbacks.onVideoFrame
  | .onVideoStreamAdded _ => callbacks.onVideoStreamAdded
  | .onVideoStreamRemoved _ => callbacks.onVideoStreamRemoved

/-- The call of a callback, if it is set. -/
def fire (router : ReceiveRouter codecs) (stream : Nat) (callback : Callback codecs) :
    List (Effect codecs) :=
  if router.callbacks.handles callback then [.fired stream callback] else []

/-- One decode and what follows it. The decoder is the one the tick has a pointer
to: that of the stream it pulled the frame from. -/
def decode (router : ReceiveRouter codecs) (ready : Ready) (frame : EncodedFrame) :
    ReceiveRouter codecs × List (Effect codecs) :=
  match router.streams.find? ready.ssrc with
  | none => (router, [.dangling ready.stream])
  | some stream =>
      if stream.number ≠ ready.stream then (router, [.dangling ready.stream])
      else if ready.video then
        match stream.vdec with
        | none => (router, [.dangling ready.stream])
        | some vdec =>
            let (vdec, decoded) := codecs.decodeVideo vdec frame
            ({ router with
                streams := router.streams.store ready.ssrc { stream with vdec := some vdec } },
              match decoded with
              | .ok picture => router.fire ready.stream (.onVideoFrame ready.ssrc picture)
              | .error _ => [])
      else
        match stream.adec with
        | none => (router, [.dangling ready.stream])
        | some adec =>
            let (adec, decoded) := codecs.decodeAudio adec frame
            ({ router with
                streams := router.streams.store ready.ssrc { stream with adec := some adec } },
              match decoded with
              | .ok sound => if router.playback then [.enqueue ready.stream sound] else []
              | .error _ => [])

def proceed (router : ReceiveRouter codecs) : ReceiveRouter codecs × List (Effect codecs) :=
  match router.working with
  | { ready := ready :: rest, removedVideo } =>
      if ready.video && ready.announce then
        ({ router with working := ⟨{ ready with announce := false } :: rest, removedVideo⟩ },
          router.fire ready.stream (.onVideoStreamAdded ready.ssrc))
      else
        match ready.frames with
        | [] => ({ router with working := ⟨rest, removedVideo⟩ }, [])
        | frame :: frames =>
            { router with working := ⟨{ ready with frames } :: rest,
              removedVideo⟩ }.decode ready frame
  | { ready := [], removedVideo := removal :: rest } =>
      ({ router with working := ⟨[], rest⟩ },
        router.fire removal.stream (.onVideoStreamRemoved removal.ssrc))
  | { ready := [], removedVideo := [] } => (router, [])

/-! ## Runs -/

def step (router : ReceiveRouter codecs) :
    Event → ReceiveRouter codecs × List (Effect codecs)
  | .pushPacket packet arrival => router.pushPacket packet arrival
  | .tick now => (router.tick now, [])
  | .proceed => router.proceed

def machine (config : Config) (callbacks : Callbacks) (playback : Bool) :
    Machine (ReceiveRouter codecs) Event (List (Effect codecs)) where
  initial := create config callbacks playback
  step := step

end ReceiveRouter

end Vela
