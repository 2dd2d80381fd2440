import Vela.Foundation.Machine
import Vela.Foundation.OrderedMap
import Vela.Foundation.SerialNumber
import Vela.Network.RTPHandler

/-! # The jitter buffer

Pending access units keyed by RTP timestamp, each with its packets keyed by
sequence number. `push` files a packet, `pop` hands out the oldest access unit
whose delay has elapsed and drops those it cannot hand out. -/

namespace Vela

open Foundation

structure SequenceGap where
  firstMissing : BitVec 16
  lastMissing : BitVec 16
  deriving DecidableEq, Repr

structure JitterBufferConfig where
  targetDelay : SteadyTime := 50000000
  kind : MediaKind := .video
  videoCodec : VideoCodec := .h264
  audioCodec : AudioCodec := .opus

structure JitterStats where
  pushed : BitVec 64 := 0
  duplicates : BitVec 64 := 0
  late : BitVec 64 := 0
  emitted : BitVec 64 := 0
  reordered : BitVec 64 := 0
  deriving DecidableEq, Repr

/-- Order timestamps for playout, accounting for 32-bit wraparound. -/
def tsLessThan (a b : BitVec 32) : Bool := decide (b - a < 0x80000000) && a != b

/-- The order of `std::map` on sequence numbers. -/
def seqKeyLess (a b : BitVec 16) : Bool := decide (a < b)

/-- One access unit being assembled. -/
structure PendingFrame where
  timestamp : BitVec 32 := 0
  firstArrival : SteadyTime := 0
  hasMarker : Bool := false
  minSeq : BitVec 16 := 0
  maxSeq : BitVec 16 := 0
  seqInit : Bool := false
  packets : OrderedMap (BitVec 16) RtpPacket seqKeyLess := .empty

namespace PendingFrame

/-- The first packet anchors the delay timer. -/
def anchor (frame : PendingFrame) (timestamp : BitVec 32) (arrival : SteadyTime) : PendingFrame :=
  if frame.packets.entries.isEmpty then { frame with timestamp, firstArrival := arrival } else frame

def holds (frame : PendingFrame) (seq : BitVec 16) : Bool := (frame.packets.find? seq).isSome

def isReordered (frame : PendingFrame) (seq : BitVec 16) : Bool :=
  frame.seqInit && seqLessThan seq frame.maxSeq

def trackSeq (frame : PendingFrame) (seq : BitVec 16) : PendingFrame :=
  if !frame.seqInit then { frame with minSeq := seq, maxSeq := seq, seqInit := true }
  else
    { frame with
      minSeq := if seqLessThan seq frame.minSeq then seq else frame.minSeq
      maxSeq := if seqLessThan frame.maxSeq seq then seq else frame.maxSeq }

def insert (frame : PendingFrame) (packet : RtpPacket) : PendingFrame :=
  let frame := frame.trackSeq packet.sequenceNumber
  { frame with
    hasMarker := frame.hasMarker || packet.marker
    packets := frame.packets.store packet.sequenceNumber packet }

/-- The numbers from `minSeq` up to `maxSeq`, with 16-bit wraparound. -/
def arc (frame : PendingFrame) : List (BitVec 16) :=
  SerialNumber.arc frame.minSeq frame.maxSeq

/-- The in-order packet list for depacketization. -/
def ordered (frame : PendingFrame) : List RtpPacket := frame.arc.filterMap frame.packets.find?

/-- What `gaps` carries along its walk: the gap it is inside of, and the finished
ones. -/
structure GapWalk where
  current : Option SequenceGap := none
  result : List SequenceGap := []

def GapWalk.visit (frame : PendingFrame) (walk : GapWalk) (expected : BitVec 16) : GapWalk :=
  if !frame.holds expected then
    match walk.current with
    | none => { walk with current := some ⟨expected, expected⟩ }
    | some gap => { walk with current := some { gap with lastMissing := expected } }
  else
    match walk.current with
    | none => walk
    | some gap => { current := none, result := walk.result ++ [gap] }

def GapWalk.finish (walk : GapWalk) : List SequenceGap := walk.result ++ walk.current.toList

def gaps (frame : PendingFrame) : List SequenceGap :=
  if !frame.seqInit || frame.packets.entries.isEmpty then []
  else (frame.arc.foldl (GapWalk.visit frame) {}).finish

end PendingFrame

/-- `TsCompare` orders timestamps strictly only within one half of their circle. What
`std::map` finds among others is left open. -/
abbrev FrameSearch := Search tsLessThan

structure JitterBuffer where
  config : JitterBufferConfig
  frames : OrderedMap (BitVec 32) PendingFrame tsLessThan
  hasEmitted : Bool := false
  lastEmittedTs : BitVec 32 := 0
  stats : JitterStats := {}

namespace JitterBuffer

def create (search : FrameSearch) (config : JitterBufferConfig) : JitterBuffer :=
  { config, frames := .emptyWith search }

/-- At or older than the access unit that went out last. -/
def isLate (buffer : JitterBuffer) (timestamp : BitVec 32) : Bool :=
  buffer.hasEmitted &&
    (timestamp == buffer.lastEmittedTs || tsLessThan timestamp buffer.lastEmittedTs)

/-- `frames_[timestamp]`, anchored if it holds no packet yet. -/
def pending (buffer : JitterBuffer) (timestamp : BitVec 32) (arrival : SteadyTime) : PendingFrame :=
  ((buffer.frames.find? timestamp).getD {}).anchor timestamp arrival

def push (buffer : JitterBuffer) (packet : RtpPacket) (arrival : SteadyTime) :
    JitterBuffer × Bool :=
  let stats := buffer.stats
  if buffer.isLate packet.timestamp then
    ({ buffer with stats := { stats with late := stats.late + 1 } }, false)
  else
    let frame := buffer.pending packet.timestamp arrival
    if frame.holds packet.sequenceNumber then
      ({ buffer with
          frames := buffer.frames.store packet.timestamp frame
          stats := { stats with duplicates := stats.duplicates + 1 } }, false)
    else
      ({ buffer with
          frames := buffer.frames.store packet.timestamp (frame.insert packet)
          stats := { stats with
            reordered := stats.reordered +
              if frame.isReordered packet.sequenceNumber then 1 else 0
            pushed := stats.pushed + 1 } }, true)

/-- Video needs the marker and a count that fills `minSeq..maxSeq`. -/
def isComplete (config : JitterBufferConfig) (frame : PendingFrame) : Bool :=
  match config.kind with
  | .audio => !frame.packets.entries.isEmpty
  | .video =>
      if !frame.hasMarker || frame.packets.entries.isEmpty then false
      else (seqDistance frame.minSeq frame.maxSeq).toNat + 1 == frame.packets.size

def delayElapsed (config : JitterBufferConfig) (now : SteadyTime) (frame : PendingFrame) : Bool :=
  decide (now - frame.firstArrival ≥ config.targetDelay)

/-- The buffer without its oldest frame, which went out or was dropped. -/
def advance (buffer : JitterBuffer) (frame : PendingFrame)
    (rest : List (BitVec 32 × PendingFrame)) : JitterBuffer :=
  { buffer with
    frames := buffer.frames.leave rest
    hasEmitted := true
    lastEmittedTs := frame.timestamp }

def assemble (config : JitterBufferConfig) (frame : PendingFrame) :
    Except RtpPacket.Fault EncodedFrame :=
  RTPHandler.depacketize frame.ordered config.kind config.videoCodec config.audioCodec

/-- The loop of `pop`, on the frames that are left. -/
def popLoop (now : SteadyTime) :
    List (BitVec 32 × PendingFrame) → JitterBuffer → JitterBuffer × Option EncodedFrame
  | [], buffer => (buffer, none)
  | (_, frame) :: rest, buffer =>
      if !delayElapsed buffer.config now frame then (buffer, none)
      else if !isComplete buffer.config frame then
        -- A partial access unit cannot be decoded: drop it and advance.
        popLoop now rest (buffer.advance frame rest)
      else
        let advanced := buffer.advance frame rest
        match assemble buffer.config frame with
        | .error _ => popLoop now rest advanced
        | .ok encoded =>
            ({ advanced with
                stats := { advanced.stats with emitted := advanced.stats.emitted + 1 } },
              some encoded)

def pop (buffer : JitterBuffer) (now : SteadyTime) : JitterBuffer × Option EncodedFrame :=
  popLoop now buffer.frames.entries buffer

def gaps (buffer : JitterBuffer) : List SequenceGap :=
  buffer.frames.entries.flatMap fun entry => entry.2.gaps

def frameCount (buffer : JitterBuffer) : Nat := buffer.frames.size

/-! ## Runs -/

inductive Event where
  | push (packet : RtpPacket) (arrival : SteadyTime)
  | pop (now : SteadyTime)
  deriving DecidableEq

inductive Output where
  | pushed (accepted : Bool)
  | popped (frame : Option EncodedFrame)
  deriving DecidableEq

def step (buffer : JitterBuffer) : Event → JitterBuffer × Output
  | .push packet arrival =>
      let (buffer, accepted) := buffer.push packet arrival
      (buffer, .pushed accepted)
  | .pop now =>
      let (buffer, frame) := buffer.pop now
      (buffer, .popped frame)

def machine (search : FrameSearch) (config : JitterBufferConfig) :
    Machine JitterBuffer Event Output where
  initial := create search config
  step := step

end JitterBuffer

end Vela
