import Vela.Media.SendPipeline
import Vela.Media.VideoDelivery
import Vela.Sfu.Forwarding

/-! # A call through the forwarding server

What one participant captures, another one sees: the sender's pipeline encodes and
packetizes, the server forwards to the other members of the room, and the
receiver's router puts the stream together again. Between them packets cross any
number of hops. -/

namespace Vela

open Foundation RtpPacket

namespace SFUServer

variable {Sink : Type} {hasKeyframeRequest : Bool} {roomId : String}
  {participantId : ParticipantId}

/-- A packet that is owed was routed in the room. -/
theorem mem_due {past during : List (Event Sink)} {packet : RtpPacket}
    (owed : packet ∈ due hasKeyframeRequest roomId participantId past during) :
    ∃ senderId, .routePacket roomId senderId packet ∈ during := by
  induction during generalizing past with
  | nil => cases owed
  | cons event rest induction =>
      rcases List.mem_append.mp owed with now | later
      · cases event with
        | routePacket room senderId routed =>
            rw [dueFor] at now
            split at now
            · rename_i here
              rw [List.mem_singleton.mp now, ← here.1]
              exact ⟨senderId, List.mem_cons_self⟩
            · cases now
        | _ => cases now
      · rcases induction later with ⟨senderId, member⟩
        exact ⟨senderId, List.mem_cons_of_mem _ member⟩

end SFUServer

namespace ReceiveRouter

theorem ssrc_of_own {codecs : Codecs} {config : Config} {callbacks : Callbacks} {playback : Bool}
    {events : List Event} {ssrc : BitVec 32} {packet : RtpPacket} {arrival : SteadyTime}
    (own : .packet packet arrival ∈ ownEvents codecs config callbacks playback events ssrc) :
    packet.ssrc = ssrc := by
  rcases Machine.mem_shares _ _ own with ⟨past, event, _, mine⟩
  cases event with
  | pushPacket pushed time =>
      rw [concerns] at mine
      split at mine
      · rename_i same
        cases List.mem_singleton.mp mine
        exact same
      · cases mine
  | tick now =>
      rw [concerns] at mine
      split at mine
      · cases List.mem_singleton.mp mine
      · cases mine
  | proceed => cases mine

end ReceiveRouter

namespace GroupCall

open ReceiveRouter (ownEvents heardFor effects)
open LoneReceiver (arrivals lastArrival taken showing audible)
open SFUServer (due callsDuring)
open RTPHandler

/-! ## The stages of a call -/

section Stages

variable {video : VideoLibrary} {audio : AudioLibrary}

/-- The access units that a pipeline sends of what is captured, with their packets. -/
def sentVideo (pipeline : SendPipeline video audio) (captures : List SendPipeline.Event) :
    List (EncodedFrame × List RtpPacket) :=
  SendPipeline.sent .video ((SendPipeline.machine pipeline).transcript captures)

/-- All packets that a pipeline hands to its sink. -/
def sunk (pipeline : SendPipeline video audio) (captures : List SendPipeline.Event) :
    List RtpPacket :=
  ((SendPipeline.machine pipeline).transcript captures).flatMap fun call => call.2.sunk

end Stages

variable {Sink : Type}

/-- What is routed in a room under a source comes from that source's sink. -/
def Upstream (sunk : List RtpPacket) (ssrc : BitVec 32) (roomId : String)
    (events : List (SFUServer.Event Sink)) : Prop :=
  ∀ senderId packet, .routePacket roomId senderId packet ∈ events → packet.ssrc = ssrc →
    ∃ original ∈ sunk, Carried original packet

/-- What a router is given of a source comes from calls on the member's sink. -/
def Downstream (calls : List (SinkCall Sink)) (own : List LoneReceiver.Event) : Prop :=
  ∀ packet arrival, .packet packet arrival ∈ own → ∃ call ∈ calls, Carried call.packet packet

/-- Everything that a member is owed reaches its router. -/
def Complete (calls : List (SinkCall Sink)) (owed packets : List RtpPacket)
    (own : List LoneReceiver.Event) : Prop :=
  (∀ packet ∈ packets, packet ∈ owed) ∧
    ∀ call ∈ calls, call.packet ∈ packets → ∃ arrival, (call.packet, arrival) ∈ taken own

/-! ## From the sender's camera to the receiver's router -/

section Call

variable {video : VideoLibrary} {audio : AudioLibrary} {pipeline : SendPipeline video audio}
  {captures : List SendPipeline.Event}

theorem packetized_sentVideo (sink : pipeline.hasSink = true) :
    pipeline.videoRtp.packetizeAll ((sentVideo pipeline captures).map Prod.fst) =
      .ok ((sentVideo pipeline captures).map Prod.snd) :=
  (@SendPipeline.streams_run _ _ _ sink .video _ rfl captures).2.packetized

theorem transmission_sentVideo (sink : pipeline.hasSink = true)
    (few : ∀ unit ∈ sentVideo pipeline captures, unit.2.length ≤ 2 ^ 15)
    (noFragment : ∀ unit ∈ sentVideo pipeline captures, ∀ nals,
      nalUnits unit.1.payload = .ok nals → ∀ nal ∈ nals,
        nal.length ≤ pipeline.videoRtp.maxPayload → nalType nal ≠ kNalFuA) :
    Transmission pipeline.videoRtp ((sentVideo pipeline captures).map Prod.fst)
      ((sentVideo pipeline captures).map Prod.snd) where
  video := (@SendPipeline.streams_run _ _ _ sink .video _ rfl captures).2.isKind
  packetized := packetized_sentVideo sink
  few := by
    intro packets member
    rcases List.mem_map.mp member with ⟨unit, isUnit, rfl⟩
    exact few unit isUnit
  noFragment := by
    intro frame member
    rcases List.mem_map.mp member with ⟨unit, isUnit, rfl⟩
    exact noFragment unit isUnit

/-- A packet that arrives was handed to the sink as one of the video's. -/
theorem original_of_arrived (sink : pipeline.hasSink = true)
    (apart : ∀ handler, pipeline.audioRtp = some handler → handler.ssrc ≠ pipeline.videoRtp.ssrc)
    {hasKeyframeRequest : Bool} {roomId : String} {me : ParticipantId} {destination : Sink}
    {joined during : List (SFUServer.Event Sink)}
    (isMember : ((SFUServer.machine hasKeyframeRequest).run joined).egress roomId me =
      some (some destination, ∅))
    (stays : .removeParticipant roomId me ∉ during)
    (upstream : Upstream (sunk pipeline captures) pipeline.videoRtp.ssrc roomId during)
    {own : List LoneReceiver.Event}
    (downstream : Downstream (callsDuring hasKeyframeRequest roomId me joined during) own)
    {packet : RtpPacket} {arrival : SteadyTime} (arrived : .packet packet arrival ∈ own)
    (isSource : packet.ssrc = pipeline.videoRtp.ssrc) :
    ∃ original ∈ ((sentVideo pipeline captures).map Prod.snd).flatten, Carried original packet := by
  rcases downstream packet arrival arrived with ⟨call, made, fromServer⟩
  rw [(SFUServer.member_run hasKeyframeRequest isMember stays).1] at made
  rcases List.mem_flatMap.mp made with ⟨routed, owed, called⟩
  cases List.mem_singleton.mp called
  rcases SFUServer.mem_due owed with ⟨senderId, wasRouted⟩
  have sameSource : routed.ssrc = pipeline.videoRtp.ssrc := fromServer.ssrc.symm.trans isSource
  rcases upstream senderId routed wasRouted sameSource with ⟨original, wasSunk, toServer⟩
  refine ⟨original, ?_, toServer.trans fromServer⟩
  have isVideo : original ∈ (sunk pipeline captures).filter fun packet =>
      packet.ssrc = pipeline.videoRtp.ssrc :=
    List.mem_filter.mpr ⟨wasSunk, decide_eq_true (toServer.ssrc.symm.trans sameSource)⟩
  rw [sunk, @SendPipeline.sunk_run _ _ _ sink .video _ rfl _ captures] at isVideo
  · exact isVideo
  · intro other foreign different isForeign
    cases other with
    | video => exact absurd rfl different
    | audio => exact apart foreign isForeign

end Call

/-- In a call through the forwarding server a member hears of a sender's video the
beginning of an announcement and the pictures of a prefix of what the sender
encoded, in the order and with the times of the sender's captures; exactly that
when no tick is in progress; and all of it once a tick has found due all that the
server owed. -/
theorem capture_to_screen {video : VideoLibrary} {audio : AudioLibrary}
    {pipeline : SendPipeline video audio} (sink : pipeline.hasSink = true)
    (apart : ∀ handler, pipeline.audioRtp = some handler → handler.ssrc ≠ pipeline.videoRtp.ssrc)
    (sevenBits : pipeline.videoRtp.payloadType &&& 0x7F = pipeline.videoRtp.payloadType)
    {captures : List SendPipeline.Event}
    (advancing : (captures.filterMap (SendPipeline.Event.timestamp? .video)).Pairwise
      fun earlier later =>
        1 ≤ SerialNumber.forward earlier later ∧ SerialNumber.forward earlier later < 2 ^ 31)
    (few : ∀ unit ∈ sentVideo pipeline captures, unit.2.length ≤ 2 ^ 15)
    (noFragment : ∀ unit ∈ sentVideo pipeline captures, ∀ nals,
      nalUnits unit.1.payload = .ok nals → ∀ nal ∈ nals,
        nal.length ≤ pipeline.videoRtp.maxPayload → nalType nal ≠ kNalFuA)
    {hasKeyframeRequest : Bool} {roomId : String} {me : ParticipantId} {destination : Sink}
    {joined during : List (SFUServer.Event Sink)}
    (isMember : ((SFUServer.machine hasKeyframeRequest).run joined).egress roomId me =
      some (some destination, ∅))
    (stays : .removeParticipant roomId me ∉ during)
    (upstream : Upstream (sunk pipeline captures) pipeline.videoRtp.ssrc roomId during)
    (codecs : Codecs) {config : ReceiveRouter.Config} (callbacks : ReceiveRouter.Callbacks)
    (playback : Bool) (notAudio : pipeline.videoRtp.payloadType ≠ config.audioPayloadType)
    {events : List ReceiveRouter.Event}
    (downstream : Downstream (callsDuring hasKeyframeRequest roomId me joined during)
      (ownEvents codecs config callbacks playback events pipeline.videoRtp.ssrc))
    (onTime : ∀ past now, past ++ [.tick now] <+:
        ownEvents codecs config callbacks playback events pipeline.videoRtp.ssrc →
      OnTime ((sentVideo pipeline captures).map Prod.snd) config.targetDelay (arrivals past) now)
    (awake : ∀ past now, past ++ [.tick now] <+:
        ownEvents codecs config callbacks playback events pipeline.videoRtp.ssrc →
      ∀ arrival ∈ lastArrival past, now - arrival ≤ config.streamTimeout) :
    ∃ shown : List EncodedFrame,
      (∃ count,
        List.Forall₂ Delivers (((sentVideo pipeline captures).map Prod.fst).take count) shown) ∧
      List.Sublist (shown.map EncodedFrame.rtpTimestamp)
        (captures.filterMap (SendPipeline.Event.timestamp? .video)) ∧
      heardFor pipeline.videoRtp.ssrc (effects codecs config callbacks playback events) <+:
        (showing codecs shown).filter (audible callbacks playback) ∧
      (((ReceiveRouter.machine config callbacks playback :
          Machine (ReceiveRouter codecs) _ _).run events).working = {} →
        heardFor pipeline.videoRtp.ssrc (effects codecs config callbacks playback events) =
          (showing codecs shown).filter (audible callbacks playback)) ∧
      ∀ past now, past ++ [.tick now] <+:
          ownEvents codecs config callbacks playback events pipeline.videoRtp.ssrc →
        Complete (callsDuring hasKeyframeRequest roomId me joined during)
          (due hasKeyframeRequest roomId me joined during)
          ((sentVideo pipeline captures).map Prod.snd).flatten past →
        (∀ packet arrival, (packet, arrival) ∈ taken past → arrival + config.targetDelay ≤ now) →
        List.Forall₂ Delivers ((sentVideo pipeline captures).map Prod.fst) shown := by
  have transmission := transmission_sentVideo sink few noFragment
  have stamped := @SendPipeline.stamped_run _ _ _ sink .video _ rfl captures
  rcases transmission.exists_orderedStream (advancing.sublist stamped) with
    ⟨stream, arePackets, carry⟩
  have carries := LoneReceiver.carries_of_carried transmission arePackets sevenBits notAudio
    (fun packet arrival arrived => original_of_arrived sink apart isMember stays upstream downstream
      arrived (ReceiveRouter.ssrc_of_own arrived)) onTime awake
  rcases ReceiveRouter.shown_of_carries codecs callbacks playback carries with
    ⟨count, isPrefix, done, all⟩
  have shown := delivers_of_carry (List.forall₂_take count carry) .h264
  refine ⟨stream.frames count, ⟨count, shown⟩, ?_, isPrefix, done, ?_⟩
  · have sameTimes : (stream.frames count).map EncodedFrame.rtpTimestamp =
        (((sentVideo pipeline captures).map Prod.fst).take count).map
          EncodedFrame.rtpTimestamp := by
      symm
      rw [← List.forall₂_eq_eq_eq, List.forall₂_map_left_iff, List.forall₂_map_right_iff]
      exact shown.imp fun _ _ delivers => delivers.1.symm
    rw [sameTimes]
    exact ((List.take_sublist _ _).map _).trans stamped
  · intro past now isTick complete due
    have allTaken : ∀ packet ∈ ((sentVideo pipeline captures).map Prod.snd).flatten,
        ∃ arrival, (packet, arrival) ∈ taken past := by
      intro packet isSent
      apply complete.2 { room := roomId, receiver := me, sink := destination, packet } ?_ isSent
      rw [(SFUServer.member_run hasKeyframeRequest isMember stays).1]
      exact List.mem_flatMap.mpr ⟨packet, complete.1 packet isSent, List.mem_singleton.mpr rfl⟩
    have allDue := LoneReceiver.allDue_of_taken arePackets allTaken due
    rw [all past now isTick allDue, OrderedStream.frames, List.take_length]
    exact delivers_of_carry carry .h264

/-! ## A call of two pictures -/

def tinyPacket (sequenceNumber : BitVec 16) (timestamp : BitVec 32) : RtpPacket :=
  { marker := true, payloadType := 96, sequenceNumber, timestamp, ssrc := 7, payload := [0x65, 2] }

def tinyUnit (timestamp : BitVec 32) : EncodedFrame :=
  { kind := .video, videoCodec := .h264, keyframe := true, rtpTimestamp := timestamp,
    payload := [0, 0, 0, 1, 0x65, 2] }

def twoCaptures : List SendPipeline.Event :=
  [.pushVideoFrame (some (SendPipeline.tinyPicture 3000)),
    .pushVideoFrame (some (SendPipeline.tinyPicture 6000))]

def twoJoined : List (SFUServer.Event Nat) :=
  [.addParticipant "room" "A" (some 1), .addParticipant "room" "B" (some 2)]

def twoRouted : List (SFUServer.Event Nat) :=
  [.routePacket "room" "A" (tinyPacket 0 3000), .routePacket "room" "A" (tinyPacket 1 6000)]

def twoArrived : List ReceiveRouter.Event :=
  [.pushPacket (tinyPacket 0 3000) 0, .pushPacket (tinyPacket 1 6000) 5, .tick 90000000,
    .proceed, .proceed, .proceed, .proceed]

def twoOwn : List LoneReceiver.Event :=
  [.packet (tinyPacket 0 3000) 0, .packet (tinyPacket 1 6000) 5]

theorem sentVideo_two : sentVideo SendPipeline.tinyCall twoCaptures =
    [(tinyUnit 3000, [tinyPacket 0 3000]), (tinyUnit 6000, [tinyPacket 1 6000])] := by
  decide

theorem own_two : ownEvents ReceiveRouter.plainCodecs {} ⟨true, true, true⟩ true twoArrived 7 =
    twoOwn ++ [.tick 90000000] := rfl

theorem calls_two : callsDuring false "room" "B" twoJoined twoRouted =
    [⟨"room", "B", 2, tinyPacket 0 3000⟩, ⟨"room", "B", 2, tinyPacket 1 6000⟩] := by
  decide

theorem tick_two {past : List LoneReceiver.Event} {now : SteadyTime}
    (isTick : past ++ [.tick now] <+:
      ownEvents ReceiveRouter.plainCodecs {} ⟨true, true, true⟩ true twoArrived 7) :
    past = twoOwn ∧ now = 90000000 := by
  rw [own_two] at isTick
  rcases past with _ | ⟨first, _ | ⟨second, _ | ⟨third, rest⟩⟩⟩ <;> simp_all [twoOwn]

theorem taken_two {packet : RtpPacket} (member : packet ∈ [tinyPacket 0 3000, tinyPacket 1 6000]) :
    ∃ arrival, (packet, arrival) ∈ taken twoOwn := by
  rcases List.mem_cons.mp member with same | isSecond
  · exact ⟨0, by rw [same]; decide⟩
  · exact ⟨5, by rw [List.mem_singleton.mp isSecond]; decide⟩

theorem upstream_two : Upstream (sunk SendPipeline.tinyCall twoCaptures) 7 "room" twoRouted := by
  have allSunk : sunk SendPipeline.tinyCall twoCaptures =
      [tinyPacket 0 3000, tinyPacket 1 6000] := by decide
  intro senderId packet member _
  refine ⟨packet, ?_, .refl⟩
  rw [allSunk]
  simp only [twoRouted, List.mem_cons, SFUServer.Event.routePacket.injEq, List.not_mem_nil,
    or_false] at member ⊢
  exact member.imp (fun same => same.2.2) fun same => same.2.2

theorem downstream_two : Downstream (callsDuring false "room" "B" twoJoined twoRouted)
    (ownEvents ReceiveRouter.plainCodecs {} ⟨true, true, true⟩ true twoArrived 7) := by
  intro packet arrival member
  rw [own_two] at member
  rw [calls_two]
  simp only [twoOwn, List.cons_append, List.nil_append, List.mem_cons,
    LoneReceiver.Event.packet.injEq, reduceCtorEq, List.not_mem_nil, or_false] at member
  rcases member with ⟨same, _⟩ | ⟨same, _⟩
  · exact ⟨_, List.mem_cons_self, same ▸ .refl⟩
  · exact ⟨_, List.mem_cons_of_mem _ List.mem_cons_self, same ▸ .refl⟩

theorem onTime_two {past : List LoneReceiver.Event} {now : SteadyTime}
    (isTick : past ++ [.tick now] <+:
      ownEvents ReceiveRouter.plainCodecs {} ⟨true, true, true⟩ true twoArrived 7) :
    OnTime ((sentVideo SendPipeline.tinyCall twoCaptures).map Prod.snd) 50000000 (arrivals past)
      now := by
  intro index position packets later _ isPackets _ _ packet packetMem
  rw [JitterBuffer.WasPushed, LoneReceiver.pushes_arrivals, (tick_two isTick).1]
  apply taken_two
  rw [sentVideo_two] at isPackets
  exact List.mem_flatten.mpr ⟨_, List.mem_of_getElem? isPackets, packetMem⟩

theorem noFragment_two : ∀ unit ∈ sentVideo SendPipeline.tinyCall twoCaptures, ∀ nals,
    nalUnits unit.1.payload = .ok nals → ∀ nal ∈ nals,
      nal.length ≤ SendPipeline.tinyCall.videoRtp.maxPayload → nalType nal ≠ kNalFuA := by
  rw [sentVideo_two]
  intro unit member nals isNals nal nalMem _
  have onlyNal :
    ∀ unit ∈ [(tinyUnit 3000, [tinyPacket 0 3000]), (tinyUnit 6000, [tinyPacket 1 6000])],
      nalUnits unit.1.payload = .ok [[0x65, 2]] := by decide
  rw [onlyNal unit member] at isNals
  cases isNals
  rw [List.mem_singleton.mp nalMem]
  decide

theorem complete_two : Complete (callsDuring false "room" "B" twoJoined twoRouted)
    (due false "room" "B" twoJoined twoRouted)
    ((sentVideo SendPipeline.tinyCall twoCaptures).map Prod.snd).flatten twoOwn := by
  rw [calls_two, sentVideo_two]
  refine ⟨by decide, ?_⟩
  intro call member _
  apply taken_two
  simp only [List.mem_cons, List.not_mem_nil, or_false] at member ⊢
  exact member.imp (fun same => by rw [same]) fun same => by rw [same]

/-- A sends two pictures, the server forwards them, and B plays both out. -/
theorem capture_to_screen_two_pictures :
    ∃ shown, List.Forall₂ Delivers
        ((sentVideo SendPipeline.tinyCall twoCaptures).map Prod.fst) shown ∧
      heardFor 7 (effects ReceiveRouter.plainCodecs {} ⟨true, true, true⟩ true twoArrived) =
        (showing ReceiveRouter.plainCodecs shown).filter (audible ⟨true, true, true⟩ true) := by
  have awake : ∀ past now, past ++ [.tick now] <+:
      ownEvents ReceiveRouter.plainCodecs {} ⟨true, true, true⟩ true twoArrived 7 →
        ∀ arrival ∈ lastArrival past, now - arrival ≤ 3000000000 := by
    intro past now isTick arrival isLast
    rw [(tick_two isTick).1] at isLast
    rw [(tick_two isTick).2, ← Option.some.inj isLast]
    decide
  have few : ∀ unit ∈ sentVideo SendPipeline.tinyCall twoCaptures, unit.2.length ≤ 2 ^ 15 := by
    rw [sentVideo_two]
    decide
  rcases @capture_to_screen Nat SendPipeline.plainVideo SendPipeline.plainAudio
    SendPipeline.tinyCall rfl (by intro handler isHandler; cases isHandler; decide) rfl twoCaptures
    (by decide) few noFragment_two false "room" "B" 2 twoJoined twoRouted rfl (by decide)
    upstream_two ReceiveRouter.plainCodecs {} ⟨true, true, true⟩ true (by decide) twoArrived
    downstream_two (fun _ _ => onTime_two) awake with ⟨shown, _, _, _, heard, all⟩
  refine ⟨shown, all twoOwn 90000000 (own_two ▸ List.prefix_refl _) complete_two ?_, heard rfl⟩
  intro packet arrival isTaken
  have takenAt : (packet, arrival) ∈
      [(tinyPacket 0 3000, (0 : SteadyTime)), (tinyPacket 1 6000, 5)] := isTaken
  simp only [List.mem_cons, Prod.mk.injEq, List.not_mem_nil, or_false] at takenAt
  rcases takenAt with ⟨_, same⟩ | ⟨_, same⟩ <;> rw [same] <;> decide

end GroupCall

end Vela
