import Mathlib.Logic.Relation
import Vela.Network.PacketStream
import Vela.Network.WireFormat

/-! # Hops

A packet that a handler emits survives any number of servers that parse it and
serialize it again: it has none of the fields that get lost on the wire. -/

namespace Vela

open Foundation RTPHandler

namespace RtpPacket

/-! ## On the wire -/

/-- What is serialized at one end is parsed at the other. -/
def Hop (sent received : RtpPacket) : Prop := parse sent.serialize = .ok received

/-- Through any number of servers that parse a packet and send it on. -/
def Carried : RtpPacket → RtpPacket → Prop := Relation.ReflTransGen Hop

theorem getU32_ssrc_serialize (packet : RtpPacket) :
    getU32 packet.serialize 8 = .ok packet.ssrc := by
  have split : packet.serialize =
      ([packet.firstByte, packet.secondByte] ++ putU16 packet.sequenceNumber ++
        putU32 packet.timestamp) ++
      (putU32 packet.ssrc ++ ((packet.csrcs.take packet.csrcCount).flatMap putU32 ++
        packet.payload)) := by
    simp only [serialize, List.append_assoc]
  rw [split]
  exact (getU32_append rfl).mpr ⟨_, rfl⟩

/-- Whatever else is lost of a packet, its source is not. -/
theorem Hop.ssrc {sent received : RtpPacket} (hop : Hop sent received) :
    received.ssrc = sent.ssrc := by
  rcases Datagram.parse_eq_ok_iff.mp hop with ⟨datagram, isSent, isReceived⟩
  have read := datagram.getU32_ssrc
  rw [isSent, getU32_ssrc_serialize] at read
  rw [← isReceived]
  exact (Except.ok.inj read).symm

theorem Carried.ssrc {sent received : RtpPacket} (carried : Carried sent received) :
    received.ssrc = sent.ssrc := by
  induction carried with
  | refl => rfl
  | tail _ hop induction => exact hop.ssrc.trans induction

/-- A packet of which nothing is lost on the wire. -/
structure Portable (packet : RtpPacket) : Prop extends Plain packet where
  payloadType : packet.payloadType &&& 0x7F = packet.payloadType
  csrcs : packet.csrcs = []

theorem Portable.hop {packet received : RtpPacket} (portable : Portable packet)
    (hop : Hop packet received) : received = packet := by
  have plain := portable.toPlain
  rw [Hop, ← toDatagram_bytes packet plain, Datagram.parse_bytes, toDatagram_packet,
    portable.payloadType, portable.csrcs, List.take_nil] at hop
  cases hop
  rw [← portable.csrcs]

theorem Portable.carried {packet received : RtpPacket} (portable : Portable packet)
    (carried : Carried packet received) : received = packet := by
  induction carried with
  | refl => rfl
  | tail _ hop induction =>
      rw [induction] at hop
      exact portable.hop hop

end RtpPacket

/-! ## From a handler -/

open RtpPacket (Portable)

/-- A packet as a handler emits it. -/
structure RTPHandler.Emits (handler : RTPHandler) (packet : RtpPacket) : Prop where
  payloadType : packet.payloadType = handler.payloadType
  ssrc : packet.ssrc = handler.ssrc
  portable : handler.payloadType &&& 0x7F = handler.payloadType → Portable packet

theorem emits_numberedPackets {handler : RTPHandler} {timestamp : BitVec 32}
    {payloads : List Bytes} {packet : RtpPacket}
    (member : packet ∈ handler.numberedPackets timestamp payloads) : handler.Emits packet := by
  rcases List.mem_mapIdx.mp member with ⟨_, _, isPacket⟩
  rw [← isPacket]
  exact ⟨rfl, rfl, fun sevenBits => ⟨⟨rfl, rfl, rfl⟩, sevenBits, rfl⟩⟩

theorem emits_packetize {handler after : RTPHandler} {frame : EncodedFrame}
    {packets : List RtpPacket} (packetized : handler.packetize frame = (after, .ok packets)) :
    ∀ packet ∈ packets, handler.Emits packet := by
  intro packet member
  rcases packetize_cases handler frame with ⟨error, refused⟩ | ⟨payloads, _, accepted⟩
  · rw [refused] at packetized
    cases packetized
  · rw [accepted] at packetized
    cases packetized
    exact emits_numberedPackets member

theorem emits_packetizeAll {handler : RTPHandler} {frames : List EncodedFrame}
    {sent : List (List RtpPacket)} (packetized : handler.packetizeAll frames = .ok sent) :
    ∀ packet ∈ sent.flatten, handler.Emits packet := by
  induction frames generalizing handler sent with
  | nil =>
      cases packetized
      intro packet member
      cases member
  | cons frame rest induction =>
      rw [packetizeAll] at packetized
      rcases packetize_cases handler frame with ⟨error, refused⟩ | ⟨payloads, _, accepted⟩
      · rw [refused] at packetized
        cases packetized
      · rw [accepted] at packetized
        rcases bind_eq_ok.mp packetized with ⟨later, packetizedLater, same⟩
        cases same
        intro packet member
        rw [List.flatten_cons] at member
        rcases List.mem_append.mp member with now | after
        · exact emits_numberedPackets now
        · have emits := induction packetizedLater packet after
          exact ⟨emits.payloadType, emits.ssrc, emits.portable⟩

end Vela
