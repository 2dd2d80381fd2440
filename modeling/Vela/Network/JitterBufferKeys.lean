import Vela.Network.JitterBufferSteps

/-! # The keys of the jitter buffer

The pending frames are kept in an ordered map whose comparator is an order only
within half of the timestamp circle. Up to the first frame that leaves the
buffer nothing bounds the timestamps that `push` admits; from then on the late
test does. -/

namespace Vela.JitterBuffer

open Foundation SerialNumber

/-- The comparator orders the keys strictly, and every packet is stored under
its own timestamp. -/
structure Represented (buffer : JitterBuffer) : Prop where
  ordered : StrictOrderOn tsLessThan buffer.frames.keys
  ownKey : ∀ entry ∈ buffer.frames.entries, ∀ stored ∈ entry.2.packets.entries,
    stored.2.timestamp = entry.1

/-- `Represented`, with what keeps it so. -/
structure Anchored (buffer : JitterBuffer) : Prop extends Represented buffer where
  sorted : buffer.frames.Sorted
  stamped : ∀ entry ∈ buffer.frames.entries, entry.2.timestamp = entry.1
  playedOut : buffer.hasEmitted = true →
    ∀ key ∈ buffer.frames.keys, InHalf (buffer.lastEmittedTs + 1) key

theorem tsOrder_iff_fitHalf (keys : List (BitVec 32)) :
    StrictOrderOn tsLessThan keys ↔ FitHalf keys := by
  rw [tsLessThan_eq_precedes]
  exact SerialNumber.strictOrderOn_iff_fitHalf (by decide) keys

/-- What is neither equal to nor before `last` lies in the half circle after it,
and nothing else does. -/
theorem inHalf_succ_iff_not_late {last timestamp : BitVec 32} :
    InHalf (last + 1) timestamp ↔
      timestamp ≠ last ∧ tsLessThan timestamp last = false := by
  have halfCircle : half 32 = 2147483648 := rfl
  rw [inHalf_succ_iff (by decide), tsLessThan_eq_precedes, Bool.eq_false_iff, ne_eq (precedes _ _),
    precedes_iff]
  by_cases same : timestamp = last
  · simp [same]
  · have circle := forward_swap same
    have apart := forward_pos.mpr same
    constructor
    · intro within
      exact ⟨same, by omega⟩
    · rintro ⟨_, notBefore⟩
      have bound := forward_lt timestamp last
      omega

theorem inHalf_succ_of_before {last timestamp : BitVec 32}
    (before : tsLessThan last timestamp = true) : InHalf (last + 1) timestamp := by
  rw [tsLessThan_eq_precedes, precedes_iff] at before
  have oneStep := forward_succ (forward_pos.mp before.1)
  unfold InHalf
  omega

variable {buffer : JitterBuffer} {packet : RtpPacket} {arrival : SteadyTime}

theorem Anchored.create (search : FrameSearch) (config : JitterBufferConfig) :
    Anchored (create search config) where
  ordered := (tsOrder_iff_fitHalf _).mpr ⟨0, fun _ member => nomatch member⟩
  ownKey := fun _ member => nomatch member
  sorted := OrderedMap.sorted_empty
  stamped := fun _ member => nomatch member
  playedOut := nofun

theorem Anchored.counted (anchored : Anchored buffer) (stats : JitterStats) :
    Anchored { buffer with stats } :=
  ⟨⟨anchored.ordered, anchored.ownKey⟩, anchored.sorted, anchored.stamped, anchored.playedOut⟩

/-- The frame that leaves the buffer is the oldest, so that the others lie in the
half circle after it. -/
theorem Anchored.advance (anchored : Anchored buffer) {key : BitVec 32} {frame : PendingFrame}
    {rest : List (BitVec 32 × PendingFrame)}
    (split : buffer.frames.entries = (key, frame) :: rest) :
    Anchored (buffer.advance frame rest) := by
  have sorted := anchored.sorted
  unfold OrderedMap.Sorted at sorted
  rw [split, List.pairwise_cons] at sorted
  have remaining : ∀ entry ∈ rest, entry ∈ buffer.frames.entries := by
    intro entry member
    rw [split]
    exact List.mem_cons_of_mem _ member
  have frameKey : frame.timestamp = key :=
    anchored.stamped (key, frame) (by rw [split]; exact List.mem_cons_self)
  refine ⟨⟨?_, ?_⟩, sorted.2, ?_, ?_⟩
  · apply anchored.ordered.subset
    intro other member
    rcases OrderedMap.mem_keys.mp member with ⟨value, inRest⟩
    exact OrderedMap.mem_keys.mpr ⟨value, remaining _ inRest⟩
  · exact fun entry member => anchored.ownKey entry (remaining entry member)
  · exact fun entry member => anchored.stamped entry (remaining entry member)
  · intro _ other member
    rcases OrderedMap.mem_keys.mp member with ⟨value, inRest⟩
    have after := sorted.1 _ inRest
    rw [← frameKey] at after
    exact inHalf_succ_of_before after

theorem Anchored.pop (anchored : Anchored buffer) (now : SteadyTime) :
    Anchored (buffer.pop now).1 := by
  apply @pop_preserves Anchored
  · exact fun _ stats anchored => anchored.counted stats
  · exact fun _ _ _ _ split anchored => anchored.advance split
  · exact anchored

/-- Once a frame has left the buffer, the late test keeps the keys in a window. -/
theorem Anchored.fitHalf (anchored : Anchored buffer) (emitted : buffer.hasEmitted = true)
    (inTime : buffer.isLate packet.timestamp = false) :
    FitHalf (packet.timestamp :: buffer.frames.keys) := by
  rw [isLate, emitted, Bool.true_and, Bool.or_eq_false_iff, beq_eq_false_iff_ne] at inTime
  refine ⟨buffer.lastEmittedTs + 1, fun key member => ?_⟩
  rcases List.mem_cons.mp member with isNew | old
  · rw [isNew]
    exact inHalf_succ_iff_not_late.mpr inTime
  · exact anchored.playedOut emitted key old

/-- The packets of the frame that a packet is added to. -/
theorem pending_ownKey (anchored : Anchored buffer)
    (ordered : StrictOrderOn tsLessThan (packet.timestamp :: buffer.frames.keys)) :
    (buffer.pending packet.timestamp arrival).timestamp = packet.timestamp ∧
      ∀ stored ∈ ((buffer.pending packet.timestamp arrival).insert packet).packets.entries,
        stored.2.timestamp = packet.timestamp := by
  have ofPending : ∀ frame : PendingFrame,
      (∀ stored ∈ frame.packets.entries, stored.2.timestamp = packet.timestamp) →
      ∀ stored ∈ (frame.insert packet).packets.entries,
        stored.2.timestamp = packet.timestamp := by
    intro frame own stored member
    rcases OrderedMap.mem_store_cases member with old | ⟨_, new⟩ | ⟨_, _, _, _, _, _, new⟩
    · rw [PendingFrame.trackSeq_packets] at old
      exact own stored old
    · rw [new]
    · rw [new]
  rcases buffer.pending_cases packet.timestamp arrival with
    ⟨_, fresh⟩ | ⟨slot, frame, _, found, _⟩
  · rw [fresh]
    exact ⟨rfl, ofPending _ fun _ member => nomatch member⟩
  · have member := (OrderedMap.find?_eq_some_iff anchored.sorted ordered).mp found
    have own := anchored.ownKey _ member
    have stamp := anchored.stamped _ member
    rw [pending, found, Option.getD_some, PendingFrame.anchor]
    split
    · exact ⟨rfl, ofPending _ own⟩
    · exact ⟨stamp, ofPending frame own⟩

/-- A packet whose timestamp fits into one window with the keys is filed in
order. -/
theorem Anchored.store (anchored : Anchored buffer)
    (inTime : buffer.isLate packet.timestamp = false)
    (fits : FitHalf (packet.timestamp :: buffer.frames.keys)) (stats : JitterStats) :
    Anchored { buffer with
      stats
      frames := buffer.frames.store packet.timestamp
        ((buffer.pending packet.timestamp arrival).insert packet) } := by
  have ordered := (tsOrder_iff_fitHalf _).mpr fits
  have newKeys := @OrderedMap.mem_keys_store _ _ _ _ _ anchored.sorted ordered
    ((buffer.pending packet.timestamp arrival).insert packet)
  have newEntries := @OrderedMap.mem_store_iff _ _ _ _ _ anchored.sorted ordered
    ((buffer.pending packet.timestamp arrival).insert packet)
  have fresh := @pending_ownKey buffer packet arrival anchored ordered
  have stamp : ((buffer.pending packet.timestamp arrival).insert packet).timestamp =
      packet.timestamp := by
    rw [PendingFrame.insert_timestamp, fresh.1]
  refine ⟨⟨?_, ?_⟩, anchored.sorted.store ordered _, ?_, ?_⟩
  · apply ordered.subset
    intro key member
    exact List.mem_cons.mpr (newKeys.mp member)
  · intro entry member
    rcases newEntries.mp member with isNew | ⟨_, old⟩
    · rw [isNew]
      exact fresh.2
    · exact anchored.ownKey entry old
  · intro entry member
    rcases newEntries.mp member with isNew | ⟨_, old⟩
    · rw [isNew]
      exact stamp
    · exact anchored.stamped entry old
  · intro emitted key member
    rcases newKeys.mp member with isNew | old
    · rw [isLate, emitted, Bool.true_and, Bool.or_eq_false_iff, beq_eq_false_iff_ne] at inTime
      rw [isNew]
      exact inHalf_succ_iff_not_late.mpr inTime
    · exact anchored.playedOut emitted key old

/-- Conversely, filing a packet in a represented buffer takes such a window: a
slot that the comparator cannot tell from the timestamp must carry it. -/
theorem fitHalf_of_represented {stats : JitterStats}
    (represented : Represented { buffer with
      stats
      frames := buffer.frames.store packet.timestamp
        ((buffer.pending packet.timestamp arrival).insert packet) }) :
    FitHalf (packet.timestamp :: buffer.frames.keys) := by
  rcases buffer.frames.exists_mem_store packet.timestamp
    ((buffer.pending packet.timestamp arrival).insert packet) with ⟨slot, member, _⟩
  rcases OrderedMap.exists_mem_store
    ((buffer.pending packet.timestamp arrival).trackSeq packet.sequenceNumber).packets
    packet.sequenceNumber packet with ⟨seq, stored, _⟩
  have ownKey : packet.timestamp = slot := represented.ownKey _ member _ stored
  have isKey := OrderedMap.mem_keys.mpr ⟨_, member⟩
  rw [← ownKey] at isKey
  apply (tsOrder_iff_fitHalf _).mp
  apply represented.ordered.subset
  intro key keyMember
  rcases List.mem_cons.mp keyMember with isNew | old
  · rw [isNew]
    exact isKey
  · exact OrderedMap.keys_subset_store _ _ _ old

/-! ## Runs -/

/-- Before a frame has left the buffer, a packet that is no duplicate has its
timestamp in one half circle with those of the pending frames. -/
def KeepsWindow (buffer : JitterBuffer) : Event → Prop
  | .push packet arrival =>
      buffer.hasEmitted = true ∨
        (buffer.pending packet.timestamp arrival).holds packet.sequenceNumber = true ∨
        FitHalf (packet.timestamp :: buffer.frames.keys)
  | .pop _ => True

theorem Anchored.step (anchored : Anchored buffer) {event : Event}
    (keeps : KeepsWindow buffer event) : Anchored (buffer.step event).1 := by
  cases event with
  | pop now => exact anchored.pop now
  | push packet arrival =>
      change Anchored (buffer.push packet arrival).1
      rcases push_cases buffer packet arrival with
        ⟨stats, refused, _⟩ | ⟨stats, accepted, inTime, notHeld⟩
      · rw [refused]
        exact anchored.counted stats
      · rw [accepted]
        rcases keeps with emitted | held | fits
        · exact anchored.store inTime (anchored.fitHalf emitted inTime) stats
        · rw [notHeld] at held
          cases held
        · exact anchored.store inTime fits stats

/-- A step after which the buffer is still represented kept the window. -/
theorem KeepsWindow.of_represented {event : Event}
    (represented : Represented (buffer.step event).1) : KeepsWindow buffer event := by
  cases event with
  | pop now => trivial
  | push packet arrival =>
      change Represented (buffer.push packet arrival).1 at represented
      rcases push_cases buffer packet arrival with
        ⟨stats, refused, late | held⟩ | ⟨stats, accepted, _, _⟩
      · rw [isLate, Bool.and_eq_true] at late
        exact .inl late.1
      · exact .inr (.inl held)
      · rw [accepted] at represented
        exact .inr (.inr (fitHalf_of_represented represented))

/-- In every state of a run the keys are strictly ordered and every packet lies
under its own timestamp, exactly if every push up to the first emitted or
dropped frame keeps the pending timestamps inside one half circle, whatever the
map finds where it does not. -/
theorem represented_iff_keepsWindow (search : FrameSearch) (config : JitterBufferConfig)
    (events : List Event) :
    (machine search config).Always Represented events ↔
      (machine search config).EveryStep KeepsWindow events := by
  constructor
  · intro always past event isPrefix
    have after := always _ isPrefix
    rw [Machine.run_snoc] at after
    exact KeepsWindow.of_represented after
  · intro every
    apply Machine.Always.mono _ fun _ (anchored : Anchored _) => anchored.toRepresented
    exact Machine.always_of_everyStep (Anchored.create search config)
      (fun _ _ anchored keeps => anchored.step keeps) every

/-- Antipodal timestamps: the comparator cannot tell them apart, and the second
packet is stored in the frame of the first. -/
theorem antipodal_packets_share_frame :
    ¬ ∀ (search : FrameSearch) (config : JitterBufferConfig) (events : List Event),
      Represented ((machine search config).run events) := by
  intro always
  have represented := always (.linear _) {} [.push {} 0,
    .push { timestamp := 0x80000000, sequenceNumber := 1 } 0]
  have shared := represented.ownKey (0, PendingFrame.insert (PendingFrame.insert {} {})
    { timestamp := 0x80000000, sequenceNumber := 1 }) (List.mem_singleton.mpr rfl)
    (1, { timestamp := 0x80000000, sequenceNumber := 1 }) (by decide)
  exact absurd shared (by decide)

end Vela.JitterBuffer
