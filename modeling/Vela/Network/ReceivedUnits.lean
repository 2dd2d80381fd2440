import Vela.Network.JitterBufferCompleteness
import Vela.Network.SentUnits

/-! # Sent units in the jitter buffer

A pending frame that holds some of the packets of one sent unit: when it counts
as complete it holds a suffix of them, and what it is played out as depends on
where that suffix begins. -/

namespace Vela

open Foundation SerialNumber PendingFrame JitterBuffer RTPHandler

/-- `frame` holds packets of `unit` only. -/
structure PartOf {maxPayload : Nat} (unit : SentUnit maxPayload) (frame : PendingFrame) : Prop
    extends Tracked frame where
  ofUnit : frame.timestamp = unit.timestamp
  fromUnit : ∀ stored ∈ frame.packets.entries, stored.2 ∈ unit.packets
  marked : frame.hasMarker = true ↔ ∃ stored ∈ frame.packets.entries, stored.2.marker = true

namespace PartOf

variable {maxPayload : Nat} {unit : SentUnit maxPayload} {frame : PendingFrame}
  {packet : RtpPacket} {config : JitterBufferConfig}

theorem stored_of_key (part : PartOf unit frame) {seq : BitVec 16}
    (isKey : seq ∈ frame.packets.keys) :
    ∃ packet, (seq, packet) ∈ frame.packets.entries ∧ packet ∈ unit.packets ∧
      packet.sequenceNumber = seq := by
  rcases OrderedMap.mem_keys.mp isKey with ⟨packet, stored⟩
  exact ⟨packet, stored, part.fromUnit _ stored, part.numbered _ stored⟩

theorem inHalf (part : PartOf unit frame) {seq : BitVec 16} (isKey : seq ∈ frame.packets.keys) :
    InHalf unit.firstSeq seq := by
  rcases part.stored_of_key isKey with ⟨packet, _, member, number⟩
  rw [← number]
  exact unit.inHalf member

/-- The frame holds a packet of the unit as soon as it holds its number. -/
theorem stored_of_held (part : PartOf unit frame) (member : packet ∈ unit.packets)
    (held : frame.holds packet.sequenceNumber = true) :
    (packet.sequenceNumber, packet) ∈ frame.packets.entries := by
  rcases part.stored_of_key (part.holds_iff.mp held) with ⟨other, stored, otherMember, number⟩
  rw [unit.eq_of_sequenceNumber member otherMember number.symm] at stored ⊢
  exact stored

theorem insert_fresh (member : packet ∈ unit.packets) (arrival : SteadyTime) :
    PartOf unit (PendingFrame.insert { timestamp := packet.timestamp, firstArrival := arrival }
      packet) := by
  refine ⟨Tracked.insert_fresh _ _ _, ?_, ?_, ?_⟩
  · rw [insert_timestamp]
    exact unit.stamped packet member
  · intro stored isStored
    rw [List.mem_singleton.mp isStored]
    exact member
  · rw [insert_hasMarker]
    constructor
    · exact fun marker => ⟨_, List.mem_singleton.mpr rfl, by simpa using marker⟩
    · rintro ⟨stored, isStored, marker⟩
      rw [List.mem_singleton.mp isStored] at marker
      simpa using marker

theorem insert (part : PartOf unit frame) (member : packet ∈ unit.packets)
    (notHeld : frame.holds packet.sequenceNumber = false) : PartOf unit (frame.insert packet) := by
  have grows : Extends frame packet.sequenceNumber := by
    rw [Extends, seqLessThan_eq_precedes]
    exact inHalf_grows (by decide) (part.inHalf part.minHeld) (part.inHalf part.maxHeld)
      (unit.inHalf member) part.span
  have newEntries := @mem_entries_insert frame packet part.sorted
  refine ⟨part.toTracked.insert grows, ?_, ?_, ?_⟩
  · rw [insert_timestamp]
    exact part.ofUnit
  · intro stored isStored
    rcases newEntries.mp isStored with new | ⟨_, old⟩
    · rw [new]
      exact member
    · exact part.fromUnit stored old
  · rw [insert_hasMarker, Bool.or_eq_true, part.marked]
    constructor
    · rintro (⟨stored, old, marker⟩ | marker)
      · have different : stored.1 ≠ packet.sequenceNumber := by
          intro same
          have isKey := OrderedMap.mem_keys.mpr ⟨stored.2, old⟩
          rw [same, ← part.holds_iff, notHeld] at isKey
          cases isKey
        exact ⟨stored, newEntries.mpr (.inr ⟨different, old⟩), marker⟩
      · exact ⟨_, newEntries.mpr (.inl rfl), marker⟩
    · rintro ⟨stored, isStored, marker⟩
      rcases newEntries.mp isStored with new | ⟨_, old⟩
      · rw [new] at marker
        exact .inr marker
      · exact .inl ⟨stored, old, marker⟩

/-! ## Complete frames -/

/-- A frame that counts as complete hands out the packets of its unit from the
least number on, for it holds the last one. -/
theorem ordered_suffix (part : PartOf unit frame) (video : config.kind = .video)
    (complete : isComplete config frame = true) :
    ∃ lost first kept, unit.packets = lost ++ first :: kept ∧ frame.ordered = first :: kept ∧
      forward unit.firstSeq frame.minSeq = lost.length ∧
      (frame.minSeq, first) ∈ frame.packets.entries := by
  rw [isComplete_video video part.toFiled, part.size_eq_iff part.onArc, part.marked] at complete
  rcases complete with ⟨⟨⟨lastSeq, last⟩, lastStored, marker⟩, full⟩
  have lastMember := part.fromUnit _ lastStored
  have lastNumber : last.sequenceNumber = lastSeq := part.numbered _ lastStored
  have lastPosition := (unit.last_of_marker lastMember).mp marker
  rw [lastNumber] at lastPosition
  have lastOnArc := mem_arc.mp (part.onArc lastSeq (OrderedMap.mem_keys.mpr ⟨last, lastStored⟩))
  rcases part.stored_of_key part.minHeld with ⟨first, firstStored, firstMember, firstNumber⟩
  rcases part.stored_of_key part.maxHeld with ⟨greatest, _, greatestMember, greatestNumber⟩
  rcases unit.exists_index firstMember with ⟨index, within, isFirst, firstPosition⟩
  rcases unit.exists_index greatestMember with ⟨maxIndex, maxWithin, _, maxPosition⟩
  rw [firstNumber] at firstPosition
  rw [greatestNumber] at maxPosition
  have toMax := forward_of_le
    (le_of_span (by decide) (part.inHalf part.minHeld) part.span)
  have toLast := forward_of_le
    (le_of_span (by decide) (part.inHalf part.minHeld) (lastOnArc.trans part.span))
  have steps : forward frame.minSeq frame.maxSeq = unit.packets.length - index - 1 := by omega
  have minNumber : frame.minSeq = unit.firstSeq + BitVec.ofNat 16 index := by
    rw [← firstPosition, add_forward]
  have numbers : (unit.packets.drop index).map RtpPacket.sequenceNumber = frame.arc := by
    rw [unit.numbers_drop within, PendingFrame.arc, SerialNumber.arc, steps, minNumber]
  have ordered : frame.ordered = unit.packets.drop index := by
    have found : ∀ packet ∈ unit.packets.drop index,
        (frame.packets.find? ∘ RtpPacket.sequenceNumber) packet = some packet := by
      intro packet member
      have isKey := full packet.sequenceNumber
        (by rw [← numbers]; exact List.mem_map_of_mem member)
      exact part.find?_iff.mpr
        (part.stored_of_held (List.mem_of_mem_drop member) (part.holds_iff.mpr isKey))
    rw [PendingFrame.ordered, ← numbers, List.filterMap_map, List.filterMap_congr found,
      List.filterMap_some]
  refine ⟨unit.packets.take index, first, unit.packets.drop (index + 1), ?_, ?_, ?_, firstStored⟩
  · rw [← isFirst, List.getElem_cons_drop, List.take_append_drop]
  · rw [ordered, ← isFirst, List.getElem_cons_drop]
  · rw [firstPosition, List.length_take]
    omega

/-- The first packet of a unit is held exactly if the least number is its own. -/
theorem holds_head_iff (part : PartOf unit frame) {head : RtpPacket}
    (isHead : head ∈ unit.packets.head?) :
    frame.holds head.sequenceNumber = true ↔ forward unit.firstSeq frame.minSeq = 0 := by
  have within := unit.length_pos
  have headNumber : head.sequenceNumber = unit.firstSeq := by
    have number := unit.numbered 0 within
    rw [← List.head_eq_getElem unit.nonempty] at number
    rw [List.head?_eq_some_head unit.nonempty] at isHead
    rw [← Option.some.inj isHead, number]
    simp
  rw [part.holds_iff, headNumber]
  constructor
  · intro isKey
    have onArc := mem_arc.mp (part.onArc _ isKey)
    have before := le_of_span (by decide) (part.inHalf part.minHeld) (onArc.trans part.span)
    rw [forward_self] at before
    exact Nat.le_zero.mp before
  · intro position
    rw [forward_eq_zero.mp position]
    exact part.minHeld

/-- What a complete frame is played out as: nothing if it begins inside of a NAL
unit, else the NAL units of its packets; and these are all of them exactly if no
leading packet is missing. -/
theorem playable_cases (positive : 0 < maxPayload) (part : PartOf unit frame)
    (video : config.kind = .video) (complete : isComplete config frame = true) :
    ∃ first, (frame.minSeq, first) ∈ frame.packets.entries ∧
      ((startsNal first.payload = false ∧ playable config frame = none) ∨
        (startsNal first.payload = true ∧ ∃ nals,
          playable config frame = some (videoFrame config.videoCodec unit.timestamp nals) ∧
          (annexB nals = annexB unit.nals ↔
            ∀ head ∈ unit.packets.head?, frame.holds head.sequenceNumber = true))) := by
  rcases part.ordered_suffix video complete with
    ⟨lost, first, kept, split, ordered, position, isMin⟩
  have firstStamp : first.timestamp = unit.timestamp :=
    unit.stamped first (by rw [split]; simp)
  refine ⟨first, isMin, ?_⟩
  cases starts : startsNal first.payload with
  | false =>
      left
      refine ⟨rfl, ?_⟩
      rw [playable, if_pos complete, assemble, ordered, video, depacketize_not_start kept starts]
      rfl
  | true =>
      right
      have payloads := unit.payloads
      rw [split, List.map_append, List.map_cons] at payloads
      rcases cut_at_start positive unit.carriable payloads.symm starts with
        ⟨before, after, nals, lostPayloads, keptPayloads⟩
      have noneLost : lost = [] ↔ before = [] := by
        constructor
        · intro empty
          cases before with
          | nil => rfl
          | cons nal rest =>
              rcases nalPayloads_cases positive (unit.carriable nal (by rw [nals]; simp)) with
                ⟨one, others, some, _⟩
              rw [empty, List.flatMap_cons, some] at lostPayloads
              cases lostPayloads
        · intro empty
          rw [empty, List.flatMap_nil] at lostPayloads
          exact List.map_eq_nil_iff.mp lostPayloads
      refine ⟨rfl, after, ?_, ?_⟩
      · have assembled := depacketize_nals positive
          (fun nal member =>
            unit.carriable nal (by rw [nals]; exact List.mem_append_right _ member))
          config.videoCodec config.audioCodec
          (show (first :: kept).map RtpPacket.payload = _ from keptPayloads)
        rw [playable, if_pos complete, assemble, ordered, video, assembled, firstStamp]
        rfl
      · rw [nals, annexB_suffix_eq_iff, ← noneLost]
        constructor
        · intro empty head isHead
          rw [part.holds_head_iff isHead, position, empty]
          rfl
        · intro held
          have isHead := List.head?_eq_some_head unit.nonempty
          have atStart := (part.holds_head_iff isHead).mp (held _ isHead)
          rw [position] at atStart
          exact List.eq_nil_of_length_eq_zero atStart

theorem complete_of_all (part : PartOf unit frame) (video : config.kind = .video)
    (all : ∀ packet ∈ unit.packets, frame.holds packet.sequenceNumber = true) :
    isComplete config frame = true := by
  have positive := unit.length_pos
  rw [isComplete_video video part.toFiled, part.size_eq_iff part.onArc, part.marked]
  constructor
  · have within : unit.packets.length - 1 < unit.packets.length := by omega
    have member := List.getElem_mem within
    refine ⟨_, part.stored_of_held member (all _ member), ?_⟩
    show unit.packets[unit.packets.length - 1].marker = true
    rw [unit.marked _ within, decide_eq_true_eq]
    omega
  · intro seq onArc
    rw [PendingFrame.arc, mem_arc] at onArc
    have toMax := forward_of_le (le_of_span (by decide) (part.inHalf part.minHeld) part.span)
    have toSeq := forward_of_le
      (le_of_span (by decide) (part.inHalf part.minHeld) (onArc.trans part.span))
    rcases part.stored_of_key part.maxHeld with ⟨greatest, _, greatestMember, greatestNumber⟩
    rcases unit.exists_index greatestMember with ⟨maxIndex, maxWithin, _, maxPosition⟩
    rw [greatestNumber] at maxPosition
    have within : forward unit.firstSeq seq < unit.packets.length := by omega
    have number := unit.numbered _ within
    rw [add_forward] at number
    rw [← part.holds_iff, ← number]
    exact all _ (List.getElem_mem within)

/-- A frame that holds all packets of its unit is played out as the whole unit. -/
theorem playable_of_all (positive : 0 < maxPayload) (part : PartOf unit frame)
    (video : config.kind = .video)
    (all : ∀ packet ∈ unit.packets, frame.holds packet.sequenceNumber = true) :
    playable config frame = some (videoFrame config.videoCodec unit.timestamp unit.nals) := by
  have complete := part.complete_of_all video all
  rcases part.ordered_suffix video complete with ⟨lost, first, kept, split, ordered, position, _⟩
  have noneLost : lost = [] := by
    have isHead := List.head?_eq_some_head unit.nonempty
    have atStart := (part.holds_head_iff isHead).mp (all _ (List.head_mem unit.nonempty))
    rw [position] at atStart
    exact List.eq_nil_of_length_eq_zero atStart
  rw [noneLost, List.nil_append] at split
  have assembled := depacketize_nals positive unit.carriable config.videoCodec config.audioCodec
    (show (first :: kept).map RtpPacket.payload = _ by rw [← split]; exact unit.payloads)
  have firstStamp : first.timestamp = unit.timestamp :=
    unit.stamped first (by rw [split]; exact List.mem_cons_self)
  rw [playable, if_pos complete, assemble, ordered, video, assembled, firstStamp]
  rfl

end PartOf

end Vela
