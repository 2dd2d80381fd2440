import Vela.Network.RtpPacket
import Vela.Foundation.UnorderedMap

/-! # Participants

Per-endpoint routing state inside a room. The send sink is a callback of the
application; the model names it by a value of an arbitrary type and reports its
invocations. -/

namespace Vela

open Foundation

abbrev ParticipantId := String

structure Participant (Sink : Type) where
  id : ParticipantId
  sink : Option Sink
  audioSsrc : BitVec 32 := 0
  videoSsrc : BitVec 32 := 0
  needsKeyframe : Bool := false
  targetBitrate : BitVec 32 := 0
  rembEstimate : BitVec 32 := 0
  forwardedSeqs : UnorderedMap (BitVec 32) (BitVec 16) := ∅
  deriving DecidableEq

namespace Participant

variable {Sink : Type}

def setAudioSsrc (participant : Participant Sink) (ssrc : BitVec 32) : Participant Sink :=
  { participant with audioSsrc := ssrc }

def setVideoSsrc (participant : Participant Sink) (ssrc : BitVec 32) : Participant Sink :=
  { participant with videoSsrc := ssrc }

def hasVideo (participant : Participant Sink) : Bool := participant.videoSsrc != 0

def setNeedsKeyframe (participant : Participant Sink) (needs : Bool) : Participant Sink :=
  { participant with needsKeyframe := needs }

def setTargetBitrate (participant : Participant Sink) (bps : BitVec 32) : Participant Sink :=
  { participant with targetBitrate := bps }

def setRembEstimate (participant : Participant Sink) (bps : BitVec 32) : Participant Sink :=
  { participant with rembEstimate := bps }

/-- Records the sequence number even without a sink; the sink that is invoked
with the packet, if there is one, is returned. -/
def deliver (participant : Participant Sink) (packet : RtpPacket) :
    Participant Sink × Option Sink :=
  ({ participant with
      forwardedSeqs := participant.forwardedSeqs.insert packet.ssrc packet.sequenceNumber },
    participant.sink)

def lastForwardedSeq (participant : Participant Sink) (ssrc : BitVec 32) : Option (BitVec 16) :=
  participant.forwardedSeqs.lookup ssrc

variable (participant : Participant Sink)

@[simp] theorem deliver_sink (packet : RtpPacket) :
    (participant.deliver packet).1.sink = participant.sink := rfl

@[simp] theorem deliver_rembEstimate (packet : RtpPacket) :
    (participant.deliver packet).1.rembEstimate = participant.rembEstimate := rfl

@[simp] theorem deliver_targetBitrate (packet : RtpPacket) :
    (participant.deliver packet).1.targetBitrate = participant.targetBitrate := rfl

@[simp] theorem lastForwardedSeq_deliver (packet : RtpPacket) (ssrc : BitVec 32) :
    (participant.deliver packet).1.lastForwardedSeq ssrc =
      if ssrc = packet.ssrc then some packet.sequenceNumber
      else participant.lastForwardedSeq ssrc :=
  UnorderedMap.lookup_insert_eq ssrc packet.sequenceNumber

end Participant

end Vela
