import Vela.Foundation.SerialNumber
import Vela.Network.Fragmentation

/-! # What a packetizer sends

The packets of one access unit as a structure that carries their form: one
timestamp, consecutive numbers, the marker on the last packet, and payloads that
are those of its NAL units. Every successful packetize call yields one. -/

namespace Vela

open Foundation RtpPacket RTPHandler SerialNumber

structure SentUnit (maxPayload : Nat) where
  timestamp : BitVec 32
  firstSeq : BitVec 16
  nals : List Bytes
  packets : List RtpPacket
  nonempty : packets ≠ []
  few : packets.length ≤ 2 ^ 15
  stamped : ∀ packet ∈ packets, packet.timestamp = timestamp
  numbered : ∀ index (within : index < packets.length),
    packets[index].sequenceNumber = firstSeq + BitVec.ofNat 16 index
  marked : ∀ index (within : index < packets.length),
    packets[index].marker = decide (index + 1 = packets.length)
  payloads : packets.map RtpPacket.payload = nals.flatMap (nalPayloads maxPayload)
  carriable : ∀ nal ∈ nals, Carriable maxPayload nal

namespace RTPHandler

/-! ## Packets of one call -/

/-- Packets with consecutive numbers, the last of them marked. -/
def numberedPackets (handler : RTPHandler) (timestamp : BitVec 32) (payloads : List Bytes) :
    List RtpPacket :=
  payloads.mapIdx fun index payload =>
    { payloadType := handler.payloadType, ssrc := handler.ssrc, timestamp
      sequenceNumber := handler.seq + BitVec.ofNat 16 index
      marker := decide (index + 1 = payloads.length), payload }

def advancedBy (handler : RTPHandler) (count : Nat) : RTPHandler :=
  { handler with seq := handler.seq + BitVec.ofNat 16 count }

theorem seq_add_succ (seq : BitVec 16) (count : Nat) :
    seq + 1 + BitVec.ofNat 16 count = seq + BitVec.ofNat 16 (count + 1) := by
  rw [Nat.add_comm count 1, BitVec.ofNat_add, ← BitVec.add_assoc]
  rfl

theorem emitAll_eq (handler : RTPHandler) (timestamp : BitVec 32) (payloads : List Bytes) :
    handler.emitAll timestamp payloads =
      (handler.advancedBy payloads.length, payloads.mapIdx fun index payload =>
        { payloadType := handler.payloadType, ssrc := handler.ssrc, timestamp
          sequenceNumber := handler.seq + BitVec.ofNat 16 index, payload }) := by
  induction payloads generalizing handler with
  | nil => simp [emitAll, advancedBy]
  | cons payload rest induction =>
      rw [emitAll, emit]
      simp only [induction, advancedBy, seq_add_succ, List.length_cons, List.mapIdx_cons]
      simp

theorem markLast_eq (packets : List RtpPacket) :
    markLast packets = packets.mapIdx fun index packet =>
      if index + 1 = packets.length then { packet with marker := true } else packet := by
  induction packets with
  | nil => rfl
  | cons packet rest induction =>
      cases rest with
      | nil => rfl
      | cons next rest =>
          rw [markLast, induction, List.mapIdx_cons, List.length_cons]
          cases rest <;> simp

theorem markLast_emitAll (handler : RTPHandler) (timestamp : BitVec 32) (payloads : List Bytes) :
    markLast (handler.emitAll timestamp payloads).2 =
      handler.numberedPackets timestamp payloads := by
  rw [emitAll_eq, markLast_eq, numberedPackets, List.mapIdx_mapIdx]
  apply List.mapIdx_eq_mapIdx_iff.mpr
  intro index within
  by_cases last : index + 1 = payloads.length <;> simp [last]

theorem numberedPackets_payloads (handler : RTPHandler) (timestamp : BitVec 32)
    (payloads : List Bytes) :
    (handler.numberedPackets timestamp payloads).map RtpPacket.payload = payloads := by
  apply List.ext_getElem
  · simp [numberedPackets]
  · intro index _ _
    simp [numberedPackets]

theorem numberedPackets_timestamp {handler : RTPHandler} {timestamp : BitVec 32}
    {payloads : List Bytes} (packet : RtpPacket)
    (member : packet ∈ handler.numberedPackets timestamp payloads) :
    packet.timestamp = timestamp := by
  rcases List.mem_mapIdx.mp member with ⟨index, within, isPacket⟩
  rw [← isPacket]

/-- A video frame that can be packetized has a NAL unit, and its packets carry
the payloads of its NAL units. -/
theorem packetize_video {handler after : RTPHandler} {frame : EncodedFrame}
    {packets : List RtpPacket} (video : frame.kind = .video)
    (packetized : handler.packetize frame = (after, .ok packets)) :
    ∃ nals, nalUnits frame.payload = .ok nals ∧ nals ≠ [] ∧
      after = handler.advancedBy packets.length ∧
      packets = handler.numberedPackets frame.rtpTimestamp
        (nals.flatMap (nalPayloads handler.maxPayload)) := by
  rw [packetize, video] at packetized
  split at packetized
  · cases packetized
  · simp only at packetized
    split at packetized
    · cases packetized
    · rw [packetizeH264] at packetized
      split at packetized
      · cases packetized
      · rename_i nals found
        split at packetized
        · cases packetized
        · rename_i someNals
          simp only at packetized
          split at packetized
          · cases packetized
          · cases packetized
            refine ⟨nals, found, ?_, ?_, markLast_emitAll _ _ _⟩
            · intro empty
              rw [empty] at someNals
              exact someNals rfl
            · rw [markLast_emitAll, numberedPackets, List.length_mapIdx, emitAll_eq]

/-- `findNalUnits` leaves out empty NAL units. -/
theorem nalRanges_nonempty (length : Nat) (markers : List Marker) :
    ∀ range ∈ nalRanges length markers, range.1 < range.2 := by
  fun_induction nalRanges length markers with
  | case1 => exact fun _ member => nomatch member
  | case2 marker isLonger =>
      intro range member
      rw [List.mem_singleton.mp member]
      exact isLonger
  | case3 => exact fun _ member => nomatch member
  | case4 marker next rest isLonger induction =>
      intro range member
      rcases List.mem_cons.mp member with first | later
      · rw [first]
        exact isLonger
      · exact induction range later
  | case5 marker next rest _ induction => exact induction

theorem sliceAll_nonempty {data : Bytes} {ranges : List (Nat × Nat)} {nals : List Bytes}
    (proper : ∀ range ∈ ranges, range.1 < range.2) (sliced : sliceAll data ranges = .ok nals) :
    ∀ nal ∈ nals, nal ≠ [] := by
  induction ranges generalizing nals with
  | nil =>
      cases sliced
      exact fun _ member => nomatch member
  | cons range rest induction =>
      rcases range with ⟨start, stop⟩
      rw [sliceAll] at sliced
      rcases bind_eq_ok.mp sliced with ⟨nal, one, more⟩
      rcases bind_eq_ok.mp more with ⟨later, slicedLater, same⟩
      cases same
      have properOne : start < stop := proper (start, stop) List.mem_cons_self
      intro other member
      rcases List.mem_cons.mp member with first | inLater
      · rw [slice] at one
        split at one
        · rename_i within
          cases one
          intro empty
          have noLength := congrArg List.length (first.symm.trans empty)
          rw [List.length_take, List.length_drop, List.length_nil] at noLength
          omega
        · cases one
      · exact induction (fun range inRest => proper range (List.mem_cons_of_mem _ inRest))
          slicedLater other inLater

theorem nalUnits_nonempty {data : Bytes} {nals : List Bytes} (found : nalUnits data = .ok nals) :
    ∀ nal ∈ nals, nal ≠ [] := by
  rcases bind_eq_ok.mp found with ⟨ranges, scanned, sliced⟩
  rcases bind_eq_ok.mp scanned with ⟨markers, _, same⟩
  cases same
  exact sliceAll_nonempty (nalRanges_nonempty _ _) sliced

theorem nalUnits_nil : nalUnits [] = .ok [] := rfl

/-- Every NAL unit has a payload to send. -/
theorem nalPayloads_ne_nil {maxPayload : Nat} (positive : 0 < maxPayload) (nal : Bytes) :
    nalPayloads maxPayload nal ≠ [] := by
  cases nal with
  | nil => simp [nalPayloads]
  | cons header body =>
      rw [nalPayloads]
      by_cases fits : (header :: body).length ≤ maxPayload
      · rw [if_pos fits]
        exact List.cons_ne_nil _ _
      · rw [if_neg fits]
        cases body with
        | nil => exact absurd positive fits
        | cons second body =>
            have positiveLength : 0 < (second :: body).length := Nat.succ_pos _
            rw [List.length_cons, fragments, if_pos positiveLength]
            exact List.cons_ne_nil _ _

theorem flatMap_nalPayloads_ne_nil {maxPayload : Nat} (positive : 0 < maxPayload)
    {nals : List Bytes} (someNals : nals ≠ []) : nals.flatMap (nalPayloads maxPayload) ≠ [] := by
  cases nals with
  | nil => exact absurd rfl someNals
  | cons nal rest =>
      rw [List.flatMap_cons]
      exact List.append_ne_nil_of_left_ne_nil (nalPayloads_ne_nil positive nal) _

/-- A video frame with NAL units is packetized, and all their payloads are sent. -/
theorem packetize_of_nalUnits {handler : RTPHandler} {frame : EncodedFrame} {nals : List Bytes}
    (video : frame.kind = .video) (h264 : frame.videoCodec = .h264)
    (found : nalUnits frame.payload = .ok nals) (someNals : nals ≠ []) :
    handler.packetize frame =
      (handler.advancedBy (nals.flatMap (nalPayloads handler.maxPayload)).length,
        .ok (handler.numberedPackets frame.rtpTimestamp
          (nals.flatMap (nalPayloads handler.maxPayload)))) := by
  have nonemptyPayload : frame.payload.isEmpty = false := by
    cases payload : frame.payload with
    | nil =>
        rw [payload, nalUnits_nil] at found
        cases found
        exact absurd rfl someNals
    | cons byte rest => rfl
  have someNals' : nals.isEmpty = false := by
    cases nals with
    | nil => exact absurd rfl someNals
    | cons nal rest => rfl
  have somePackets : (handler.emitAll frame.rtpTimestamp
      (nals.flatMap (nalPayloads handler.maxPayload))).2.isEmpty = false := by
    have somePayloads := flatMap_nalPayloads_ne_nil handler.maxPayload_pos someNals
    rw [emitAll_eq, List.isEmpty_eq_false_iff, Ne, List.mapIdx_eq_nil_iff]
    exact somePayloads
  have sent := handler.markLast_emitAll frame.rtpTimestamp
    (nals.flatMap (nalPayloads handler.maxPayload))
  have advanced := congrArg Prod.fst (handler.emitAll_eq frame.rtpTimestamp
    (nals.flatMap (nalPayloads handler.maxPayload)))
  rw [packetize, nonemptyPayload, video, h264, packetizeH264, found]
  simp only [Bool.false_eq_true, if_false, ne_eq, not_true_eq_false, someNals', somePackets, sent,
    advanced]

end RTPHandler

namespace SentUnit

open RTPHandler

/-- `unit` is what was sent for `frame`. -/
structure Carries {maxPayload : Nat} (frame : EncodedFrame) (unit : SentUnit maxPayload) :
    Prop where
  timestamp : unit.timestamp = frame.rtpTimestamp
  nals : nalUnits frame.payload = .ok unit.nals

/-- The unit that a successful call sends. -/
theorem exists_of_packetize {maxPayload : Nat} {handler after : RTPHandler}
    (limit : handler.maxPayload = maxPayload) {frame : EncodedFrame}
    {packets : List RtpPacket} (video : frame.kind = .video)
    (packetized : handler.packetize frame = (after, .ok packets))
    (few : packets.length ≤ 2 ^ 15)
    (noFragment : ∀ nals, nalUnits frame.payload = .ok nals → ∀ nal ∈ nals,
      nal.length ≤ handler.maxPayload → nalType nal ≠ kNalFuA) :
    ∃ unit : SentUnit maxPayload, unit.packets = packets ∧ Carries frame unit := by
  subst limit
  rcases packetize_video video packetized with ⟨nals, found, someNals, _, same⟩
  have carriable : ∀ nal ∈ nals, Carriable handler.maxPayload nal := fun nal member =>
    ⟨nalUnits_nonempty found nal member, noFragment nals found nal member⟩
  have sizes : packets.length = (nals.flatMap (nalPayloads handler.maxPayload)).length := by
    rw [same, numberedPackets, List.length_mapIdx]
  refine ⟨⟨frame.rtpTimestamp, handler.seq, nals, packets, ?_, few, ?_, ?_, ?_, ?_, carriable⟩,
    rfl, rfl, found⟩
  · cases nals with
    | nil => exact absurd rfl someNals
    | cons nal rest =>
        rcases nalPayloads_cases handler.maxPayload_pos (carriable nal List.mem_cons_self) with
          ⟨first, others, payloads, _⟩
        apply List.ne_nil_of_length_pos
        rw [sizes, List.flatMap_cons, payloads]
        exact Nat.succ_pos _
  · intro packet member
    rw [same] at member
    exact numberedPackets_timestamp packet member
  · intro index within
    simp only [same, numberedPackets, List.getElem_mapIdx]
  · intro index within
    simp only [same, numberedPackets, List.getElem_mapIdx, List.length_mapIdx]
  · rw [same, numberedPackets_payloads]

variable {maxPayload : Nat} (unit : SentUnit maxPayload)

theorem length_pos : 0 < unit.packets.length := List.length_pos_iff.mpr unit.nonempty

/-- The position of a packet is how far its number is from the first one. -/
theorem exists_index {packet : RtpPacket} (member : packet ∈ unit.packets) :
    ∃ index, ∃ within : index < unit.packets.length, unit.packets[index] = packet ∧
      forward unit.firstSeq packet.sequenceNumber = index := by
  rcases List.mem_iff_getElem.mp member with ⟨index, within, same⟩
  refine ⟨index, within, same, ?_⟩
  have few := unit.few
  rw [← same, unit.numbered index within, forward_add_ofNat _ (by omega)]

/-- All numbers of a unit lie in one half circle. -/
theorem inHalf {packet : RtpPacket} (member : packet ∈ unit.packets) :
    InHalf unit.firstSeq packet.sequenceNumber := by
  rcases unit.exists_index member with ⟨index, within, _, position⟩
  have few := unit.few
  rw [InHalf, position]
  exact Nat.lt_of_lt_of_le within few

theorem eq_of_sequenceNumber {left right : RtpPacket} (leftMem : left ∈ unit.packets)
    (rightMem : right ∈ unit.packets) (same : left.sequenceNumber = right.sequenceNumber) :
    left = right := by
  rcases unit.exists_index leftMem with ⟨leftIndex, _, isLeft, leftPosition⟩
  rcases unit.exists_index rightMem with ⟨rightIndex, _, isRight, rightPosition⟩
  rw [same] at leftPosition
  have sameIndex : leftIndex = rightIndex := leftPosition.symm.trans rightPosition
  subst sameIndex
  exact isLeft.symm.trans isRight

theorem last_of_marker {packet : RtpPacket} (member : packet ∈ unit.packets) :
    packet.marker = true ↔
      forward unit.firstSeq packet.sequenceNumber + 1 = unit.packets.length := by
  rcases unit.exists_index member with ⟨index, within, isPacket, position⟩
  rw [position, ← isPacket, unit.marked index within, decide_eq_true_eq]

/-- The numbers of what is left when leading packets are missing. -/
theorem numbers_drop {index : Nat} (within : index < unit.packets.length) :
    (unit.packets.drop index).map RtpPacket.sequenceNumber =
      arcFrom (unit.firstSeq + BitVec.ofNat 16 index) (unit.packets.length - index - 1) := by
  apply List.ext_getElem
  · rw [List.length_map, List.length_drop, arcFrom_length]
    omega
  · intro offset inLeft inRight
    rw [List.length_map, List.length_drop] at inLeft
    simp only [arcFrom_eq_map, List.getElem_map, List.getElem_drop, List.getElem_range]
    rw [unit.numbered (index + offset) (by omega), BitVec.ofNat_add, BitVec.add_assoc]

end SentUnit

/-! ## What a handler sends for a list of frames -/

/-- `sent` are the packets of H.264 access units that one handler packetized,
each of at most 2^15 packets, and without NAL units that would be taken for
fragments. -/
structure Transmission (handler : RTPHandler) (frames : List EncodedFrame)
    (sent : List (List RtpPacket)) : Prop where
  video : ∀ frame ∈ frames, frame.kind = .video
  packetized : handler.packetizeAll frames = .ok sent
  few : ∀ packets ∈ sent, packets.length ≤ 2 ^ 15
  noFragment : ∀ frame ∈ frames, ∀ nals, nalUnits frame.payload = .ok nals → ∀ nal ∈ nals,
    nal.length ≤ handler.maxPayload → nalType nal ≠ kNalFuA

theorem Transmission.exists_units {maxPayload : Nat} {handler : RTPHandler}
    (limit : handler.maxPayload = maxPayload) {frames : List EncodedFrame}
    {sent : List (List RtpPacket)} (transmission : Transmission handler frames sent) :
    ∃ units : List (SentUnit maxPayload), units.map SentUnit.packets = sent ∧
      List.Forall₂ SentUnit.Carries frames units := by
  induction frames generalizing handler sent with
  | nil =>
      have packetized := transmission.packetized
      cases packetized
      exact ⟨[], rfl, .nil⟩
  | cons frame rest induction =>
      have packetized := transmission.packetized
      rw [packetizeAll] at packetized
      split at packetized
      · cases packetized
      · rename_i after packets one
        rcases bind_eq_ok.mp packetized with ⟨later, packetizedLater, same⟩
        cases same
        have video := transmission.video frame List.mem_cons_self
        rcases SentUnit.exists_of_packetize limit video one
          (transmission.few packets List.mem_cons_self)
          (transmission.noFragment frame List.mem_cons_self) with ⟨unit, isPackets, carries⟩
        rcases packetize_video video one with ⟨_, _, _, afterEq, _⟩
        have afterLimit : after.maxPayload = handler.maxPayload := by
          rw [afterEq]
          rfl
        have laterTransmission : Transmission after rest later := by
          refine ⟨fun other member => transmission.video other (List.mem_cons_of_mem _ member),
            packetizedLater,
            fun others member => transmission.few others (List.mem_cons_of_mem _ member), ?_⟩
          rw [afterLimit]
          exact fun other member => transmission.noFragment other (List.mem_cons_of_mem _ member)
        rcases induction (afterLimit.trans limit) laterTransmission with
          ⟨units, arePackets, carry⟩
        refine ⟨unit :: units, ?_, .cons carries carry⟩
        rw [List.map_cons, isPackets, arePackets]

end Vela
