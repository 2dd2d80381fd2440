import Vela.Network.JitterBufferKeys
import Vela.Network.ReceivedUnits

/-! # Delivery over a lossy channel

A jitter buffer that is pushed only what one packetizer sent, in any order, with
losses and duplicates. The sent timestamps lie in one half circle, so the
pending frames are parts of different units. -/

namespace Vela

open Foundation SerialNumber PendingFrame JitterBuffer RTPHandler

/-- Units with different timestamps in one half circle. -/
structure Stream (maxPayload : Nat) where
  units : List (SentUnit maxPayload)
  positive : 0 < maxPayload
  distinct : (units.map SentUnit.timestamp).Nodup
  window : FitHalf (units.map SentUnit.timestamp)

namespace Stream

variable {maxPayload : Nat} {stream : Stream maxPayload} {unit other : SentUnit maxPayload}

theorem eq_of_timestamp (unitMem : unit ∈ stream.units) (otherMem : other ∈ stream.units)
    (same : unit.timestamp = other.timestamp) : unit = other :=
  List.inj_on_of_nodup_map stream.distinct unitMem otherMem same

/-- Every pending frame is part of the unit with the timestamp that keys it. -/
structure Holds (stream : Stream maxPayload) (buffer : JitterBuffer) : Prop where
  sorted : buffer.frames.Sorted
  parts : ∀ entry ∈ buffer.frames.entries,
    ∃ unit ∈ stream.units, unit.timestamp = entry.1 ∧ PartOf unit entry.2

variable {buffer : JitterBuffer} {packet : RtpPacket} {arrival : SteadyTime}

theorem Holds.create (search : FrameSearch) (config : JitterBufferConfig) :
    Holds stream (create search config) :=
  ⟨OrderedMap.sorted_empty, fun _ member => nomatch member⟩

theorem Holds.ordered (holds : Holds stream buffer) (unitMem : unit ∈ stream.units) :
    StrictOrderOn tsLessThan (unit.timestamp :: buffer.frames.keys) := by
  apply (tsOrder_iff_fitHalf _).mpr
  apply stream.window.subset
  intro key member
  rcases List.mem_cons.mp member with same | isKey
  · rw [same]
    exact List.mem_map_of_mem unitMem
  · rcases OrderedMap.mem_keys.mp isKey with ⟨frame, entry⟩
    rcases holds.parts _ entry with ⟨owner, ownerMem, stamp, _⟩
    have sameKey : owner.timestamp = key := stamp
    rw [← sameKey]
    exact List.mem_map_of_mem ownerMem

theorem Holds.part_of_mem (holds : Holds stream buffer) (unitMem : unit ∈ stream.units)
    {frame : PendingFrame} (member : (unit.timestamp, frame) ∈ buffer.frames.entries) :
    PartOf unit frame := by
  rcases holds.parts _ member with ⟨owner, ownerMem, stamp, part⟩
  rw [eq_of_timestamp ownerMem unitMem stamp] at part
  exact part

/-- Where a packet of `unit` goes: to the frame of its unit, or to a fresh one. -/
theorem Holds.pending (holds : Holds stream buffer) (unitMem : unit ∈ stream.units)
    (packetMem : packet ∈ unit.packets) (arrival : SteadyTime) :
    (packet.timestamp ∉ buffer.frames.keys ∧ buffer.pending packet.timestamp arrival =
      { timestamp := packet.timestamp, firstArrival := arrival }) ∨
    (PartOf unit (buffer.pending packet.timestamp arrival) ∧
      (packet.timestamp, buffer.pending packet.timestamp arrival) ∈ buffer.frames.entries) := by
  have stamp := unit.stamped packet packetMem
  have ordered := holds.ordered unitMem
  rw [← stamp] at ordered
  rcases buffer.pending_cases packet.timestamp arrival with
    ⟨missing, fresh⟩ | ⟨_, frame, _, found, same⟩
  · exact .inl ⟨(OrderedMap.find?_eq_none_iff holds.sorted ordered).mp missing, fresh⟩
  · right
    have member := (OrderedMap.find?_eq_some_iff holds.sorted ordered).mp found
    have part : PartOf unit frame := by
      rw [stamp] at member
      exact holds.part_of_mem unitMem member
    rw [same part.nonempty]
    exact ⟨part, member⟩

theorem Holds.part_insert (holds : Holds stream buffer) (unitMem : unit ∈ stream.units)
    (packetMem : packet ∈ unit.packets)
    (notHeld : (buffer.pending packet.timestamp arrival).holds packet.sequenceNumber = false) :
    PartOf unit ((buffer.pending packet.timestamp arrival).insert packet) := by
  rcases holds.pending unitMem packetMem arrival with ⟨_, fresh⟩ | ⟨part, _⟩
  · rw [fresh]
    exact PartOf.insert_fresh packetMem arrival
  · exact part.insert packetMem notHeld

theorem Holds.push (holds : Holds stream buffer) (unitMem : unit ∈ stream.units)
    (packetMem : packet ∈ unit.packets) (arrival : SteadyTime) :
    Holds stream (buffer.push packet arrival).1 := by
  rcases push_cases buffer packet arrival with
    ⟨stats, refused, _⟩ | ⟨stats, accepted, _, notHeld⟩
  · rw [refused]
    exact ⟨holds.sorted, holds.parts⟩
  · have stamp := unit.stamped packet packetMem
    have ordered := holds.ordered unitMem
    rw [← stamp] at ordered
    rw [accepted]
    refine ⟨holds.sorted.store ordered _, fun entry member => ?_⟩
    rcases (OrderedMap.mem_store_iff holds.sorted ordered).mp member with new | ⟨_, old⟩
    · rw [new]
      exact ⟨unit, unitMem, stamp.symm, holds.part_insert unitMem packetMem notHeld⟩
    · exact holds.parts entry old

theorem Holds.advance (holds : Holds stream buffer) {key : BitVec 32} {frame : PendingFrame}
    {rest : List (BitVec 32 × PendingFrame)}
    (split : buffer.frames.entries = (key, frame) :: rest) :
    Holds stream (buffer.advance frame rest) := by
  have sorted := holds.sorted
  unfold OrderedMap.Sorted at sorted
  rw [split] at sorted
  refine ⟨(List.pairwise_cons.mp sorted).2, fun entry member => holds.parts entry ?_⟩
  rw [split]
  exact List.mem_cons_of_mem _ member

theorem Holds.pop (holds : Holds stream buffer) (now : SteadyTime) :
    Holds stream (buffer.pop now).1 := by
  apply @pop_preserves (Holds stream)
  · exact fun _ _ holds => ⟨holds.sorted, holds.parts⟩
  · exact fun _ _ _ _ split holds => holds.advance split
  · exact holds

/-- Only packets of the stream are pushed. -/
def OnlySent (stream : Stream maxPayload) (events : List Event) : Prop :=
  ∀ packet arrival, .push packet arrival ∈ events →
    ∃ unit ∈ stream.units, packet ∈ unit.packets

theorem onlySent_of_flatten {events : List Event}
    (onlySent : ∀ packet arrival, .push packet arrival ∈ events →
      packet ∈ (stream.units.map SentUnit.packets).flatten) : OnlySent stream events := by
  intro packet arrival member
  rcases List.mem_flatten.mp (onlySent packet arrival member) with
    ⟨packets, packetsMem, packetMem⟩
  rcases List.mem_map.mp packetsMem with ⟨unit, unitMem, isUnit⟩
  rw [← isUnit] at packetMem
  exact ⟨unit, unitMem, packetMem⟩

theorem Holds.run (search : FrameSearch) (config : JitterBufferConfig) {events : List Event}
    (onlySent : OnlySent stream events) : Holds stream ((machine search config).run events) := by
  induction events using List.reverseRecOn with
  | nil => exact Holds.create search config
  | append_singleton past event induction =>
      have holds := induction fun packet arrival member =>
        onlySent packet arrival (List.mem_append_left _ member)
      rw [Machine.run_snoc]
      cases event with
      | pop now => exact holds.pop now
      | push packet arrival =>
          rcases onlySent packet arrival (by simp) with ⟨unit, unitMem, packetMem⟩
          exact holds.push unitMem packetMem arrival

end Stream

/-! ## Frames that a pop returns -/

namespace JitterBuffer

/-- The least number of a frame belongs to a packet that can begin a NAL unit. -/
def BeginsNal (frame : PendingFrame) : Prop :=
  ∃ first, (frame.minSeq, first) ∈ frame.packets.entries ∧ startsNal first.payload = true

/-- A complete frame that a pop comes to and that begins a NAL unit holds the
first packet of its unit. -/
def LeadingHeld (sent : List (List RtpPacket)) (buffer : JitterBuffer) : Event → Prop
  | .push _ _ => True
  | .pop now => ∀ frame, buffer.Reaches now frame → isComplete buffer.config frame = true →
      BeginsNal frame → ∀ packets ∈ sent, ∀ head ∈ packets.head?,
        head.timestamp = frame.timestamp → frame.holds head.sequenceNumber = true

/-- What a pop returns carries all NAL units of the access unit that was sent
with its timestamp. -/
def ReturnsWhole (frames : List EncodedFrame) (buffer : JitterBuffer) : Event → Prop
  | .push _ _ => True
  | .pop now => ∀ encoded, (buffer.pop now).2 = some encoded →
      ∃ frame ∈ frames, frame.rtpTimestamp = encoded.rtpTimestamp ∧
        ∃ nals, nalUnits frame.payload = .ok nals ∧ encoded.payload = annexB nals

end JitterBuffer

section Whole

variable {maxPayload : Nat} {stream : Stream maxPayload} {frames : List EncodedFrame}

theorem SentUnit.exists_of_frame {units : List (SentUnit maxPayload)}
    (carry : List.Forall₂ SentUnit.Carries frames units) {frame : EncodedFrame}
    (member : frame ∈ frames) : ∃ unit ∈ units, SentUnit.Carries frame unit := by
  induction carry with
  | nil => cases member
  | cons first rest induction =>
      rcases List.mem_cons.mp member with same | later
      · rw [same]
        exact ⟨_, List.mem_cons_self, first⟩
      · rcases induction later with ⟨unit, unitMem, carries⟩
        exact ⟨unit, List.mem_cons_of_mem _ unitMem, carries⟩

theorem SentUnit.exists_frame {units : List (SentUnit maxPayload)}
    (carry : List.Forall₂ SentUnit.Carries frames units) {unit : SentUnit maxPayload}
    (member : unit ∈ units) : ∃ frame ∈ frames, SentUnit.Carries frame unit := by
  induction carry with
  | nil => cases member
  | cons first rest induction =>
      rcases List.mem_cons.mp member with same | later
      · rw [same]
        exact ⟨_, List.mem_cons_self, first⟩
      · rcases induction later with ⟨frame, frameMem, carries⟩
        exact ⟨frame, List.mem_cons_of_mem _ frameMem, carries⟩

theorem SentUnit.timestamps_eq {units : List (SentUnit maxPayload)}
    (carry : List.Forall₂ SentUnit.Carries frames units) :
    units.map SentUnit.timestamp = frames.map EncodedFrame.rtpTimestamp := by
  induction carry with
  | nil => rfl
  | cons first _ induction => rw [List.map_cons, List.map_cons, first.timestamp, induction]

variable {buffer : JitterBuffer}

/-- A whole unit is what its frame carries. -/
theorem Stream.whole_iff (carry : List.Forall₂ SentUnit.Carries frames stream.units)
    {unit : SentUnit maxPayload} (unitMem : unit ∈ stream.units) (payload : Bytes) :
    (∃ frame ∈ frames, frame.rtpTimestamp = unit.timestamp ∧
      ∃ nals, nalUnits frame.payload = .ok nals ∧ payload = annexB nals) ↔
      payload = annexB unit.nals := by
  constructor
  · rintro ⟨frame, frameMem, sameStamp, nals, found, isPayload⟩
    rcases SentUnit.exists_of_frame carry frameMem with ⟨other, otherMem, carries⟩
    have same := Stream.eq_of_timestamp otherMem unitMem (carries.timestamp.trans sameStamp)
    have others := carries.nals
    rw [same, found] at others
    cases others
    exact isPayload
  · intro isPayload
    rcases SentUnit.exists_frame carry unitMem with ⟨frame, frameMem, carries⟩
    exact ⟨frame, frameMem, carries.timestamp.symm, unit.nals, carries.nals, isPayload⟩

theorem Stream.Holds.returnsWhole_iff (holds : Stream.Holds stream buffer)
    (video : buffer.config.kind = .video)
    (carry : List.Forall₂ SentUnit.Carries frames stream.units) (event : Event) :
    ReturnsWhole frames buffer event ↔
      LeadingHeld (stream.units.map SentUnit.packets) buffer event := by
  cases event with
  | push packet arrival => exact Iff.rfl
  | pop now =>
      have ownerOf : ∀ frame, buffer.Reaches now frame →
          ∃ unit ∈ stream.units, PartOf unit frame := by
        intro frame reached
        rcases reached with ⟨key, before, after, split, _⟩
        rcases holds.parts (key, frame) (by rw [split]; simp) with ⟨unit, unitMem, _, part⟩
        exact ⟨unit, unitMem, part⟩
      constructor
      · intro whole frame reached complete begins packets sentMem head isHead sameStamp
        rcases ownerOf frame reached with ⟨unit, unitMem, part⟩
        rcases List.mem_map.mp sentMem with ⟨other, otherMem, isPackets⟩
        rw [← isPackets] at isHead
        have isUnit : other = unit := by
          apply Stream.eq_of_timestamp otherMem unitMem
          rw [← other.stamped head (List.mem_of_mem_head? isHead), sameStamp, part.ofUnit]
        rw [isUnit] at isHead
        rcases part.playable_cases stream.positive video complete with
          ⟨first, isMin, ⟨notStart, _⟩ | ⟨_, nals, plays, wholeIff⟩⟩
        · rcases begins with ⟨least, alsoMin, starts⟩
          rw [part.sorted.value_unique (seqKeyLess_strict _) alsoMin isMin, notStart] at starts
          cases starts
        · have returned := pop_eq_some_iff.mpr ⟨frame, reached, plays⟩
          have payload := (Stream.whole_iff carry unitMem _).mp (whole _ returned)
          exact wholeIff.mp payload head isHead
      · intro leading encoded returned
        rcases pop_eq_some_iff.mp returned with ⟨frame, reached, plays⟩
        rcases ownerOf frame reached with ⟨unit, unitMem, part⟩
        have complete : isComplete buffer.config frame = true := by
          by_contra incomplete
          rw [playable, if_neg incomplete] at plays
          cases plays
        rcases part.playable_cases stream.positive video complete with
          ⟨first, isMin, ⟨_, skipped⟩ | ⟨starts, nals, playsNals, wholeIff⟩⟩
        · rw [plays] at skipped
          cases skipped
        · rw [plays] at playsNals
          cases playsNals
          apply (Stream.whole_iff carry unitMem _).mpr
          apply wholeIff.mpr
          intro head isHead
          apply leading frame reached complete ⟨first, isMin, starts⟩ unit.packets
            (List.mem_map_of_mem unitMem) head isHead
          rw [unit.stamped head (List.mem_of_mem_head? isHead), part.ofUnit]

end Whole

/-- The stream that a transmission with distinct timestamps in one window is. -/
theorem Transmission.exists_stream {handler : RTPHandler} {frames : List EncodedFrame}
    {sent : List (List RtpPacket)} (transmission : Transmission handler frames sent)
    (distinct : (frames.map EncodedFrame.rtpTimestamp).Nodup)
    (window : FitHalf (frames.map EncodedFrame.rtpTimestamp)) :
    ∃ stream : Stream handler.maxPayload, stream.units.map SentUnit.packets = sent ∧
      List.Forall₂ SentUnit.Carries frames stream.units := by
  rcases transmission.exists_units rfl with ⟨units, arePackets, carry⟩
  rw [← SentUnit.timestamps_eq carry] at distinct window
  exact ⟨⟨units, handler.maxPayload_pos, distinct, window⟩, arePackets, carry⟩

/-- Over a channel that loses, duplicates, delays and reorders packets, every
returned frame carries all NAL units of the access unit sent with its timestamp,
exactly if no pop comes to a complete frame that begins a NAL unit while the
leading packets of its unit are missing. -/
theorem returnsWhole_iff_leadingHeld {handler : RTPHandler} {frames : List EncodedFrame}
    {sent : List (List RtpPacket)} (transmission : Transmission handler frames sent)
    (distinct : (frames.map EncodedFrame.rtpTimestamp).Nodup)
    (window : FitHalf (frames.map EncodedFrame.rtpTimestamp))
    (search : FrameSearch) (config : JitterBufferConfig) (video : config.kind = .video)
    (events : List Event)
    (onlySent : ∀ packet arrival, .push packet arrival ∈ events → packet ∈ sent.flatten) :
    (machine search config).EveryStep (ReturnsWhole frames) events ↔
      (machine search config).EveryStep (LeadingHeld sent) events := by
  rcases transmission.exists_stream distinct window with ⟨stream, arePackets, carry⟩
  have fromStream : Stream.OnlySent stream events := by
    apply Stream.onlySent_of_flatten
    rw [arePackets]
    exact onlySent
  have stepIff : ∀ past event, past ++ [event] <+: events →
      (ReturnsWhole frames ((machine search config).run past) event ↔
        LeadingHeld sent ((machine search config).run past) event) := by
    intro past event isPrefix
    have holds : Stream.Holds stream ((machine search config).run past) := by
      apply Stream.Holds.run search config
      intro packet arrival member
      exact fromStream packet arrival (isPrefix.subset (List.mem_append_left _ member))
    have stillVideo : ((machine search config).run past).config.kind = .video := by
      rw [run_config, video]
    rw [← arePackets]
    exact holds.returnsWhole_iff stillVideo carry event
  constructor
  · exact fun every past event isPrefix =>
      (stepIff past event isPrefix).mp (every past event isPrefix)
  · exact fun every past event isPrefix =>
      (stepIff past event isPrefix).mpr (every past event isPrefix)

/-! ## A unit of two packets -/

/-- An SPS and an IDR slice, each small enough for one packet. -/
def twoNalFrame : EncodedFrame where
  videoCodec := .h264
  rtpTimestamp := 9000
  payload := [0, 0, 0, 1, 0x67, 1, 0, 0, 0, 1, 0x65, 2]

def spsPacket : RtpPacket where
  payloadType := 96
  ssrc := 7
  timestamp := 9000
  payload := [0x67, 1]

def slicePacket : RtpPacket where
  payloadType := 96
  ssrc := 7
  timestamp := 9000
  sequenceNumber := 1
  marker := true
  payload := [0x65, 2]

theorem twoNal_transmission :
    Transmission (RTPHandler.create 96 7) [twoNalFrame] [[spsPacket, slicePacket]] where
  video := by simp [twoNalFrame]
  packetized := rfl
  few := by simp
  noFragment := by
    intro frame member nals found nal nalMem _
    rw [List.mem_singleton.mp member] at found
    have units : nalUnits twoNalFrame.payload = .ok [[0x67, 1], [0x65, 2]] := rfl
    rw [units] at found
    cases found
    have types : ∀ nal ∈ ([[0x67, 1], [0x65, 2]] : List Bytes), nalType nal ≠ kNalFuA := by decide
    exact types nal nalMem

/-- With both packets there, out of order and one of them twice. -/
theorem returnsWhole_out_of_order :
    (machine (.linear _) {}).EveryStep (ReturnsWhole [twoNalFrame])
        [.push slicePacket 0, .push spsPacket 5, .push slicePacket 6, .pop 50000000] ↔
      (machine (.linear _) {}).EveryStep (LeadingHeld [[spsPacket, slicePacket]])
        [.push slicePacket 0, .push spsPacket 5, .push slicePacket 6, .pop 50000000] := by
  apply returnsWhole_iff_leadingHeld twoNal_transmission
  · exact List.nodup_singleton _
  · exact fitHalf_singleton _
  · rfl
  · intro packet arrival member
    simp only [List.mem_cons, Event.push.injEq, reduceCtorEq, List.not_mem_nil, or_false] at member
    rcases member with ⟨same, _⟩ | ⟨same, _⟩ | ⟨same, _⟩ <;> rw [same] <;> decide

/-- The SPS packet is lost, and the pop after the delay returns the slice alone. -/
theorem leading_packet_lost_returns_part :
    ¬ ∀ (handler : RTPHandler) (frames : List EncodedFrame) (sent : List (List RtpPacket))
      (search : FrameSearch) (config : JitterBufferConfig) (events : List Event),
      Transmission handler frames sent → (frames.map EncodedFrame.rtpTimestamp).Nodup →
      FitHalf (frames.map EncodedFrame.rtpTimestamp) → config.kind = .video →
      (∀ packet arrival, .push packet arrival ∈ events → packet ∈ sent.flatten) →
      (machine search config).EveryStep (ReturnsWhole frames) events := by
  intro always
  have every :=
    always (RTPHandler.create 96 7) [twoNalFrame] [[spsPacket, slicePacket]] (.linear _) {}
    [.push slicePacket 0, .pop 50000000] twoNal_transmission (List.nodup_singleton _)
    (fitHalf_singleton _) rfl (by
      intro packet arrival member
      simp only [List.mem_cons, Event.push.injEq, reduceCtorEq, List.not_mem_nil, or_false]
        at member
      rw [member.1]
      decide)
  have whole := every [.push slicePacket 0] (.pop 50000000) (List.prefix_refl _)
  rcases whole (videoFrame .h264 9000 [[0x65, 2]]) rfl with
    ⟨frame, member, _, nals, found, payload⟩
  rw [List.mem_singleton.mp member] at found
  have units : nalUnits twoNalFrame.payload = .ok [[0x67, 1], [0x65, 2]] := rfl
  rw [units] at found
  cases found
  revert payload
  decide

end Vela
