import Vela.Network.LossyDelivery

/-! # Delivery in time

When every packet of a unit has arrived before the playout of the unit, or of a
later one, is due, the jitter buffer is transparent: the frames that it returns
are those that were packetized, in order. -/

namespace Vela

open Foundation SerialNumber PendingFrame JitterBuffer RTPHandler

namespace JitterBuffer

def Event.pushed? : Event → Option (RtpPacket × SteadyTime)
  | .push packet arrival => some (packet, arrival)
  | .pop _ => none

/-- The packets pushed so far, with their arrivals. -/
def pushes (events : List Event) : List (RtpPacket × SteadyTime) := events.filterMap Event.pushed?

def WasPushed (events : List Event) (packet : RtpPacket) : Prop :=
  ∃ arrival, (packet, arrival) ∈ pushes events

def Output.returned? : Output → Option EncodedFrame
  | .pushed _ => none
  | .popped frame => frame

/-- The frames that the pops of a run return. -/
def returned (search : FrameSearch) (config : JitterBufferConfig) (events : List Event) :
    List EncodedFrame :=
  ((machine search config).outputs events).filterMap Output.returned?

theorem pushes_push (events : List Event) (packet : RtpPacket) (arrival : SteadyTime) :
    pushes (events ++ [.push packet arrival]) = pushes events ++ [(packet, arrival)] := by
  simp [pushes, Event.pushed?]

theorem pushes_pop (events : List Event) (now : SteadyTime) :
    pushes (events ++ [.pop now]) = pushes events := by
  simp [pushes, Event.pushed?]

theorem wasPushed_push {events : List Event} {packet other : RtpPacket} {arrival : SteadyTime} :
    WasPushed (events ++ [.push packet arrival]) other ↔
      WasPushed events other ∨ other = packet := by
  rw [WasPushed, pushes_push]
  constructor
  · rintro ⟨when, member⟩
    rcases List.mem_append.mp member with old | new
    · exact .inl ⟨when, old⟩
    · cases List.mem_singleton.mp new
      exact .inr rfl
  · rintro (⟨when, old⟩ | same)
    · exact ⟨when, List.mem_append_left _ old⟩
    · rw [same]
      exact ⟨arrival, by simp⟩

theorem returned_push (search : FrameSearch) (config : JitterBufferConfig) (events : List Event)
    (packet : RtpPacket)
    (arrival : SteadyTime) :
    returned search config (events ++ [.push packet arrival]) = returned search config events := by
  rw [returned, Machine.outputs_snoc, List.filterMap_append]
  exact List.append_nil _

theorem returned_pop (search : FrameSearch) (config : JitterBufferConfig) (events : List Event)
    (now : SteadyTime) :
    returned search config (events ++ [.pop now]) =
      returned search config events ++ (((machine search config).run events).pop now).2.toList := by
  rw [returned, Machine.outputs_snoc, List.filterMap_append, returned]
  congr 1

end JitterBuffer

/-- A stream whose units come one after another. -/
structure OrderedStream (maxPayload : Nat) extends Stream maxPayload where
  inOrder : units.Pairwise fun earlier later =>
    tsLessThan earlier.timestamp later.timestamp = true

namespace OrderedStream

variable {maxPayload : Nat} {stream : OrderedStream maxPayload}
  {unit other : SentUnit maxPayload} {index position : Nat}

theorem before_of_lt (isUnit : stream.units[index]? = some unit)
    (isOther : stream.units[position]? = some other) (lt : index < position) :
    tsLessThan unit.timestamp other.timestamp = true := by
  rcases List.getElem?_eq_some_iff.mp isUnit with ⟨within, same⟩
  rcases List.getElem?_eq_some_iff.mp isOther with ⟨within', same'⟩
  rw [← same, ← same']
  exact List.pairwise_iff_getElem.mp stream.inOrder index position within within' lt

theorem not_before_of_le (isUnit : stream.units[index]? = some unit)
    (isOther : stream.units[position]? = some other) (le : position ≤ index) :
    tsLessThan unit.timestamp other.timestamp = false := by
  rcases Nat.lt_or_eq_of_le le with lt | same
  · have reverse := before_of_lt isOther isUnit lt
    rw [tsLessThan_eq_precedes] at reverse ⊢
    exact precedes_asymm (by decide) reverse
  · rw [same, isUnit] at isOther
    cases isOther
    rw [tsLessThan_eq_precedes]
    exact precedes_irrefl _

theorem index_unique (isUnit : stream.units[index]? = some unit)
    (isOther : stream.units[position]? = some other)
    (same : unit.timestamp = other.timestamp) : index = position := by
  have irreflexive := not_before_of_le isUnit isUnit (Nat.le_refl index)
  by_contra different
  rcases Nat.lt_or_gt_of_ne different with lt | gt
  · have before := before_of_lt isUnit isOther lt
    rw [← same, irreflexive] at before
    cases before
  · have before := before_of_lt isOther isUnit gt
    rw [← same, irreflexive] at before
    cases before

theorem mem_of_index (isUnit : stream.units[index]? = some unit) : unit ∈ stream.units :=
  List.mem_of_getElem? isUnit

/-- What the channel owes a pop at `now`: the packets of a unit, as soon as one of
the unit or of a later unit is due. -/
def InTime (stream : OrderedStream maxPayload) (targetDelay : SteadyTime) (past : List Event)
    (now : SteadyTime) : Prop :=
  ∀ (index position : Nat) (unit later : SentUnit maxPayload), index ≤ position →
    stream.units[index]? = some unit → stream.units[position]? = some later →
    (∃ packet ∈ later.packets, ∃ arrival, (packet, arrival) ∈ pushes past ∧
      arrival ≤ now - targetDelay) →
    ∀ packet ∈ unit.packets, WasPushed past packet

/-- Everything about the buffer after the events of `past`, of which `count`
pops have returned a frame. -/
structure Progress (stream : OrderedStream maxPayload) (past : List Event)
    (buffer : JitterBuffer) (count : Nat) : Prop where
  holds : Stream.Holds stream.toStream buffer
  emitted : buffer.hasEmitted = decide (0 < count)
  last : ∀ index unit, stream.units[index]? = some unit → index + 1 = count →
    buffer.lastEmittedTs = unit.timestamp
  atMost : count ≤ stream.units.length
  /-- Units that were returned have arrived completely. -/
  done : ∀ index unit, stream.units[index]? = some unit → index < count →
    ∀ packet ∈ unit.packets, WasPushed past packet
  /-- Packets of the other units are in the buffer. -/
  kept : ∀ index unit, stream.units[index]? = some unit → count ≤ index →
    ∀ packet ∈ unit.packets, WasPushed past packet →
      ∃ frame, (unit.timestamp, frame) ∈ buffer.frames.entries ∧
        frame.holds packet.sequenceNumber = true
  pending : ∀ entry ∈ buffer.frames.entries, ∃ index unit, stream.units[index]? = some unit ∧
    count ≤ index ∧ unit.timestamp = entry.1 ∧
    (∀ stored ∈ entry.2.packets.entries, WasPushed past stored.2) ∧
    ∃ packet ∈ unit.packets, (packet, entry.2.firstArrival) ∈ pushes past

namespace Progress

variable {past : List Event} {buffer : JitterBuffer} {count : Nat} {packet : RtpPacket}
  {arrival now : SteadyTime}

theorem create (search : FrameSearch) (config : JitterBufferConfig) :
    Progress stream [] (create search config) 0 where
  holds := Stream.Holds.create search config
  emitted := rfl
  last := fun _ _ _ isLast => nomatch isLast
  atMost := Nat.zero_le _
  done := fun _ _ _ lt => absurd lt (Nat.not_lt_zero _)
  kept := fun _ _ _ _ _ _ wasPushed => by
    rcases wasPushed with ⟨_, member⟩
    cases member
  pending := fun _ member => nomatch member

/-- The late test separates the units that were returned from the others. -/
theorem isLate_iff (progress : Progress stream past buffer count)
    (isUnit : stream.units[index]? = some unit) :
    buffer.isLate unit.timestamp = true ↔ index < count := by
  rw [isLate, progress.emitted]
  cases count with
  | zero => simp
  | succ count =>
      have within : count < stream.units.length := progress.atMost
      have isLast := List.getElem?_eq_getElem within
      rw [progress.last count _ isLast rfl]
      constructor
      · intro late
        by_contra notBefore
        have after := not_before_of_le isUnit isLast (by omega)
        rw [after] at late
        have same : unit.timestamp = stream.units[count].timestamp := by simpa using late
        have sameIndex := index_unique isUnit isLast same
        omega
      · intro lt
        rcases Nat.lt_or_eq_of_le (Nat.lt_succ_iff.mp lt) with before | same
        · simp [before_of_lt isUnit isLast before]
        · rw [same, isLast] at isUnit
          cases isUnit
          simp

theorem isDuplicate_iff (progress : Progress stream past buffer count)
    (isUnit : stream.units[index]? = some unit) (packetMem : packet ∈ unit.packets)
    (notReturned : count ≤ index) :
    (buffer.pending packet.timestamp arrival).holds packet.sequenceNumber = true ↔
      WasPushed past packet := by
  have unitMem := mem_of_index isUnit
  have stamp := unit.stamped packet packetMem
  constructor
  · intro held
    rcases progress.holds.pending unitMem packetMem arrival with ⟨_, fresh⟩ | ⟨part, member⟩
    · rw [fresh] at held
      cases held
    · rcases progress.pending _ member with ⟨_, _, _, _, _, arePushed, _⟩
      exact arePushed _ (part.stored_of_held packetMem held)
  · intro wasPushed
    rcases progress.kept index unit isUnit notReturned packet packetMem wasPushed with
      ⟨frame, member, held⟩
    rcases progress.holds.pending unitMem packetMem arrival with ⟨missing, _⟩ | ⟨_, member'⟩
    · apply absurd _ missing
      rw [stamp]
      exact OrderedMap.mem_keys.mpr ⟨frame, member⟩
    · rw [← stamp] at member
      have ordered := progress.holds.ordered unitMem
      have same := progress.holds.sorted.value_unique
        (ordered.subset (List.subset_cons_self _ _)) member member'
      rw [← same]
      exact held

/-- The first copy of a packet is accepted. -/
theorem accepts_first (progress : Progress stream past buffer count)
    (unitMem : unit ∈ stream.units) (packetMem : packet ∈ unit.packets)
    (firstCopy : ¬WasPushed past packet) : (buffer.push packet arrival).2 = true := by
  rcases List.mem_iff_getElem?.mp unitMem with ⟨index, isUnit⟩
  have stamp := unit.stamped packet packetMem
  have notReturned : count ≤ index := by
    by_contra returned
    exact firstCopy (progress.done index unit isUnit (by omega) packet packetMem)
  rcases push_cases buffer packet arrival with ⟨stats, _, late | held⟩ | ⟨stats, accepted, _⟩
  · rw [stamp, progress.isLate_iff isUnit] at late
    omega
  · exact absurd ((progress.isDuplicate_iff isUnit packetMem notReturned).mp held) firstCopy
  · rw [accepted]

/-- A packet of another unit than the pushed one's was pushed before. -/
theorem wasPushed_before (isUnit : stream.units[index]? = some unit)
    (packetMem : packet ∈ unit.packets)
    {position : Nat} {other : SentUnit maxPayload} (isOther : stream.units[position]? = some other)
    {sent : RtpPacket} (sentMem : sent ∈ other.packets) (different : position ≠ index)
    (isPushed : WasPushed (past ++ [.push packet arrival]) sent) : WasPushed past sent := by
  apply (wasPushed_push.mp isPushed).resolve_right
  intro same
  rw [same] at sentMem
  have stamps := (other.stamped packet sentMem).symm.trans (unit.stamped packet packetMem)
  exact different (index_unique isOther isUnit stamps)

/-- The frames that were pending are what they were. -/
theorem pending_push (progress : Progress stream past buffer count)
    {entry : BitVec 32 × PendingFrame} (member : entry ∈ buffer.frames.entries) :
    ∃ position other, stream.units[position]? = some other ∧ count ≤ position ∧
      other.timestamp = entry.1 ∧
      (∀ stored ∈ entry.2.packets.entries,
        WasPushed (past ++ [.push packet arrival]) stored.2) ∧
      ∃ sent ∈ other.packets,
        (sent, entry.2.firstArrival) ∈ pushes (past ++ [.push packet arrival]) := by
  rcases progress.pending entry member with
    ⟨position, other, isOther, le, sameKey, arePushed, first, firstMem, isPushed⟩
  refine ⟨position, other, isOther, le, sameKey,
    fun stored isStored => wasPushed_push.mpr (.inl (arePushed stored isStored)), first, firstMem,
      ?_⟩
  rw [pushes_push]
  exact List.mem_append_left _ isPushed

/-- The frame that takes the packet holds all of its unit that was pushed. -/
theorem insert_holds (progress : Progress stream past buffer count)
    (isUnit : stream.units[index]? = some unit) (packetMem : packet ∈ unit.packets)
    (notReturned : count ≤ index)
    (notHeld : (buffer.pending packet.timestamp arrival).holds packet.sequenceNumber = false)
    {sent : RtpPacket} (sentMem : sent ∈ unit.packets)
    (isPushed : WasPushed (past ++ [.push packet arrival]) sent) :
    ((buffer.pending packet.timestamp arrival).insert packet).holds sent.sequenceNumber = true := by
  have unitMem := mem_of_index isUnit
  have stamp := unit.stamped packet packetMem
  have part := progress.holds.part_insert unitMem packetMem notHeld
  rcases progress.holds.pending unitMem packetMem arrival with ⟨missing, fresh⟩ | ⟨old, _⟩
  · rw [part.holds_iff, fresh, mem_keys_insert OrderedMap.sorted_empty]
    left
    rcases wasPushed_push.mp isPushed with before | same
    · rcases progress.kept index unit isUnit notReturned sent sentMem before with
        ⟨frame, member, _⟩
      rw [← stamp] at member
      exact absurd (OrderedMap.mem_keys.mpr ⟨frame, member⟩) missing
    · rw [same]
  · rw [part.holds_iff, mem_keys_insert old.sorted]
    rcases wasPushed_push.mp isPushed with before | same
    · right
      have sameStamp : sent.timestamp = packet.timestamp :=
        (unit.stamped sent sentMem).trans stamp.symm
      have held := (@isDuplicate_iff _ _ _ _ _ _ _ _ arrival progress isUnit sentMem
        notReturned).mpr before
      rw [sameStamp, old.holds_iff] at held
      exact held
    · left
      rw [same]

/-- Nothing is in the frame that takes the packet but what was pushed. -/
theorem insert_stored (progress : Progress stream past buffer count) (unitMem : unit ∈ stream.units)
    (packetMem : packet ∈ unit.packets) {stored : BitVec 16 × RtpPacket}
    (isStored : stored ∈
      ((buffer.pending packet.timestamp arrival).insert packet).packets.entries) :
    WasPushed (past ++ [.push packet arrival]) stored.2 := by
  rw [wasPushed_push]
  rcases progress.holds.pending unitMem packetMem arrival with ⟨_, fresh⟩ | ⟨old, oldMem⟩
  · rw [fresh] at isStored
    right
    rw [List.mem_singleton.mp isStored]
  · rcases (mem_entries_insert old.sorted).mp isStored with isNew | ⟨_, isOld⟩
    · right
      rw [isNew]
    · left
      rcases progress.pending _ oldMem with ⟨_, _, _, _, _, arePushed, _⟩
      exact arePushed stored isOld

/-- The frame that takes the packet began with a packet of its unit. -/
theorem insert_began (progress : Progress stream past buffer count)
    (isUnit : stream.units[index]? = some unit) (packetMem : packet ∈ unit.packets) :
    ∃ sent ∈ unit.packets,
      (sent, ((buffer.pending packet.timestamp arrival).insert packet).firstArrival) ∈
        pushes (past ++ [.push packet arrival]) := by
  have stamp := unit.stamped packet packetMem
  rw [pushes_push, insert_firstArrival]
  rcases progress.holds.pending (mem_of_index isUnit) packetMem arrival with
    ⟨_, fresh⟩ | ⟨_, oldMem⟩
  · rw [fresh]
    exact ⟨packet, packetMem, by simp⟩
  · rcases progress.pending _ oldMem with
      ⟨position, other, isOther, _, sameKey, _, first, firstMem, isPushed⟩
    have here := index_unique isOther isUnit (sameKey.trans stamp)
    rw [here, isUnit] at isOther
    cases isOther
    exact ⟨first, firstMem, List.mem_append_left _ isPushed⟩

theorem push (progress : Progress stream past buffer count) (unitMem : unit ∈ stream.units)
    (packetMem : packet ∈ unit.packets) (arrival : SteadyTime) :
    Progress stream (past ++ [.push packet arrival]) (buffer.push packet arrival).1 count := by
  rcases List.mem_iff_getElem?.mp unitMem with ⟨index, isUnit⟩
  have stamp := unit.stamped packet packetMem
  have ordered := progress.holds.ordered unitMem
  rw [← stamp] at ordered
  have holdsAfter := progress.holds.push unitMem packetMem arrival
  have done : ∀ position other, stream.units[position]? = some other → position < count →
      ∀ sent ∈ other.packets, WasPushed (past ++ [.push packet arrival]) sent :=
    fun position other isOther lt sent sentMem =>
      wasPushed_push.mpr (.inl (progress.done position other isOther lt sent sentMem))
  rcases push_cases buffer packet arrival with
    ⟨stats, refused, reason⟩ | ⟨stats, accepted, inTime, notHeld⟩
  · rw [refused] at holdsAfter ⊢
    refine ⟨holdsAfter, progress.emitted, progress.last, progress.atMost, done, ?_,
      fun entry member => progress.pending_push member⟩
    intro position other isOther le sent sentMem isPushed
    apply progress.kept position other isOther le sent sentMem
    by_cases here : position = index
    · rcases wasPushed_push.mp isPushed with old | same
      · exact old
      · rw [here] at le
        rcases reason with late | held
        · rw [stamp, progress.isLate_iff isUnit] at late
          omega
        · rw [same]
          exact (progress.isDuplicate_iff isUnit packetMem le).mp held
    · exact wasPushed_before isUnit packetMem isOther sentMem here isPushed
  · have notReturned : count ≤ index := by
      by_contra returned
      have late := (progress.isLate_iff isUnit).mpr (by omega)
      rw [← stamp, inTime] at late
      cases late
    have newEntries := @OrderedMap.mem_store_iff _ _ _ _ _ progress.holds.sorted ordered
      ((buffer.pending packet.timestamp arrival).insert packet)
    rw [accepted] at holdsAfter ⊢
    refine ⟨holdsAfter, progress.emitted, progress.last, progress.atMost, done, ?_, ?_⟩
    · intro position other isOther le sent sentMem isPushed
      by_cases here : position = index
      · rw [here, isUnit] at isOther
        cases isOther
        exact ⟨_, newEntries.mpr (.inl (by rw [← stamp])),
          progress.insert_holds isUnit packetMem notReturned notHeld sentMem isPushed⟩
      · rcases progress.kept position other isOther le sent sentMem
          (wasPushed_before isUnit packetMem isOther sentMem here isPushed) with
          ⟨frame, member, held⟩
        refine ⟨frame, newEntries.mpr (.inr ⟨?_, member⟩), held⟩
        intro same
        exact here (index_unique isOther isUnit (same.trans stamp))
    · intro entry member
      rcases newEntries.mp member with new | ⟨_, old⟩
      · rw [new]
        exact ⟨index, unit, isUnit, notReturned, stamp.symm,
          fun _ isStored => progress.insert_stored unitMem packetMem isStored,
          progress.insert_began isUnit packetMem⟩
      · exact progress.pending_push old

/-- The oldest pending frame, once its delay has elapsed, is the next unit and
complete. -/
theorem front (progress : Progress stream past buffer count)
    (inTime : InTime stream buffer.config.targetDelay past now)
    (video : buffer.config.kind = .video)
    {key : BitVec 32} {frame : PendingFrame} {rest : List (BitVec 32 × PendingFrame)}
    (split : buffer.frames.entries = (key, frame) :: rest)
    (elapsed : delayElapsed buffer.config now frame = true) :
    ∃ unit, stream.units[count]? = some unit ∧ unit.timestamp = key ∧ PartOf unit frame ∧
      (∀ packet ∈ unit.packets, WasPushed past packet) ∧
      playable buffer.config frame =
        some (videoFrame buffer.config.videoCodec unit.timestamp unit.nals) := by
  have frontMem : (key, frame) ∈ buffer.frames.entries := by
    rw [split]
    exact List.mem_cons_self
  rcases progress.pending _ frontMem with
    ⟨position, later, isLater, le, sameKey, _, first, firstMem, isPushed⟩
  have due : frame.firstArrival ≤ now - buffer.config.targetDelay :=
    Int.le_sub_right_of_add_le (delayElapsed_iff.mp elapsed)
  rcases List.getElem?_eq_some_iff.mp isLater with ⟨within, _⟩
  have within' : count < stream.units.length := Nat.lt_of_le_of_lt le within
  have isUnit := List.getElem?_eq_getElem within'
  have allPushed := inTime count position _ later le isUnit isLater
    ⟨first, firstMem, _, isPushed, due⟩
  have unitMem := mem_of_index isUnit
  have ordered := (progress.holds.ordered unitMem).subset (List.subset_cons_self _ _)
  -- The next unit has a frame, which the front frame cannot be before.
  have here : position = count := by
    by_contra different
    have head := List.head_mem (stream.units[count]).nonempty
    rcases progress.kept count _ isUnit (Nat.le_refl _) _ head (allPushed _ head) with
      ⟨other, otherMem, _⟩
    have before := before_of_lt isUnit isLater (by omega)
    have sorted := progress.holds.sorted
    unfold OrderedMap.Sorted at sorted
    rw [split] at sorted otherMem
    rcases List.mem_cons.mp otherMem with same | inRest
    · cases same
      exact different (index_unique isLater isUnit sameKey)
    · have after := (List.pairwise_cons.mp sorted).1 _ inRest
      rw [tsLessThan_eq_precedes] at before after
      rw [← sameKey, precedes_asymm (by decide) before] at after
      cases after
  rw [here, isUnit] at isLater
  cases isLater
  have part : PartOf stream.units[count] frame := by
    apply progress.holds.part_of_mem unitMem
    rw [sameKey]
    exact frontMem
  refine ⟨_, isUnit, sameKey, part, allPushed, ?_⟩
  apply part.playable_of_all stream.positive video
  intro packet packetMem
  rcases progress.kept count _ isUnit (Nat.le_refl _) packet packetMem (allPushed packet packetMem)
    with ⟨other, otherMem, held⟩
  rw [sameKey] at otherMem
  rw [progress.holds.sorted.value_unique ordered frontMem otherMem]
  exact held

theorem wasPushed_pop {packet : RtpPacket} :
    WasPushed (past ++ [.pop now]) packet ↔ WasPushed past packet := by
  rw [WasPushed, pushes_pop, WasPushed]

/-- The next unit goes out with the frame at the front. -/
theorem pop_front (progress : Progress stream past buffer count)
    {key : BitVec 32} {frame : PendingFrame} {rest : List (BitVec 32 × PendingFrame)}
    (split : buffer.frames.entries = (key, frame) :: rest) {unit : SentUnit maxPayload}
    (isUnit : stream.units[count]? = some unit) (sameKey : unit.timestamp = key)
    (part : PartOf unit frame) (allPushed : ∀ packet ∈ unit.packets, WasPushed past packet)
    (stats : JitterStats) :
    Progress stream (past ++ [.pop now]) { buffer.advance frame rest with stats } (count + 1) := by
  have advanced := progress.holds.advance split
  have sorted := progress.holds.sorted
  unfold OrderedMap.Sorted at sorted
  rw [split, List.pairwise_cons] at sorted
  have within := (List.getElem?_eq_some_iff.mp isUnit).1
  refine ⟨⟨advanced.sorted, advanced.parts⟩, ?_, ?_, within, ?_, ?_, ?_⟩
  · exact (decide_eq_true (Nat.succ_pos count)).symm
  · intro index other isOther isLast
    cases isLast
    rw [isUnit] at isOther
    cases isOther
    exact part.ofUnit
  · intro index other isOther lt packet packetMem
    rw [wasPushed_pop]
    rcases Nat.lt_or_eq_of_le (Nat.lt_succ_iff.mp lt) with before | same
    · exact progress.done index other isOther before packet packetMem
    · rw [same, isUnit] at isOther
      cases isOther
      exact allPushed packet packetMem
  · intro index other isOther le packet packetMem isPushed
    rw [wasPushed_pop] at isPushed
    rcases progress.kept index other isOther (Nat.le_of_succ_le le) packet packetMem isPushed
      with ⟨otherFrame, member, held⟩
    refine ⟨otherFrame, ?_, held⟩
    rw [split] at member
    apply (List.mem_cons.mp member).resolve_left
    intro same
    have sameStamp : other.timestamp = unit.timestamp :=
      (congrArg Prod.fst same).trans sameKey.symm
    have sameIndex := index_unique isOther isUnit sameStamp
    omega
  · intro entry member
    have inEntries : entry ∈ buffer.frames.entries := by
      rw [split]
      exact List.mem_cons_of_mem _ member
    rcases progress.pending entry inEntries with
      ⟨index, other, isOther, le, otherKey, arePushed, first, firstMem, isPushed⟩
    have different : index ≠ count := by
      intro same
      rw [same, isUnit] at isOther
      cases isOther
      have after := sorted.1 entry member
      rw [← sameKey, ← otherKey, tsLessThan_eq_precedes, precedes_irrefl] at after
      cases after
    refine ⟨index, other, isOther, by omega, otherKey, ?_, first, firstMem, ?_⟩
    · exact fun stored isStored => wasPushed_pop.mpr (arePushed stored isStored)
    · rw [pushes_pop]
      exact isPushed

/-- A pop in time holds back the next unit, or returns it. -/
theorem pop_cases (progress : Progress stream past buffer count)
    (inTime : InTime stream buffer.config.targetDelay past now)
    (video : buffer.config.kind = .video) :
    ((∀ entry ∈ buffer.frames.entries.head?, delayElapsed buffer.config now entry.2 = false) ∧
      buffer.pop now = (buffer, none)) ∨
    ∃ unit, stream.units[count]? = some unit ∧
      (buffer.pop now).2 = some (videoFrame buffer.config.videoCodec unit.timestamp unit.nals) ∧
      Progress stream (past ++ [.pop now]) (buffer.pop now).1 (count + 1) := by
  cases split : buffer.frames.entries with
  | nil =>
      left
      refine ⟨fun _ isHead => (nomatch isHead), ?_⟩
      rw [JitterBuffer.pop, split]
      rfl
  | cons entry rest =>
      rcases entry with ⟨key, frame⟩
      rw [JitterBuffer.pop, split, popLoop_cons]
      cases elapsed : delayElapsed buffer.config now frame with
      | false =>
          left
          refine ⟨fun entry isHead => ?_, rfl⟩
          cases isHead
          exact elapsed
      | true =>
          right
          rcases progress.front inTime video split elapsed with
            ⟨unit, isUnit, sameKey, part, allPushed, plays⟩
          rw [if_pos rfl, plays]
          exact ⟨unit, isUnit, rfl, progress.pop_front split isUnit sameKey part allPushed _⟩

theorem pop_none (progress : Progress stream past buffer count) :
    Progress stream (past ++ [.pop now]) buffer count := by
  refine ⟨progress.holds, progress.emitted, progress.last, progress.atMost, ?_, ?_, ?_⟩
  · simpa only [wasPushed_pop] using progress.done
  · simpa only [wasPushed_pop] using progress.kept
  · simpa only [wasPushed_pop, pushes_pop] using progress.pending

end Progress

/-! ## Runs -/

/-- The first `count` units have been returned, and nothing else. -/
def Delivered (stream : OrderedStream maxPayload) (search : FrameSearch)
    (config : JitterBufferConfig) (events : List Event) (count : Nat) : Prop :=
  Progress stream events ((machine search config).run events) count ∧
    returned search config events = (stream.units.take count).map fun unit =>
      videoFrame config.videoCodec unit.timestamp unit.nals

variable {search : FrameSearch} {config : JitterBufferConfig} {events : List Event} {count : Nat}
  {now : SteadyTime}

theorem Delivered.pop (delivered : Delivered stream search config events count)
    (video : config.kind = .video)
    (inTime : InTime stream config.targetDelay events now) :
    (((((machine search config).run events).pop now).2 = none) ∧
      (∀ entry ∈ ((machine search config).run events).frames.entries.head?,
        delayElapsed config now entry.2 = false) ∧
      Delivered stream search config (events ++ [.pop now]) count) ∨
    (count < stream.units.length ∧
      Delivered stream search config (events ++ [.pop now]) (count + 1)) := by
  rcases delivered with ⟨progress, frames⟩
  have sameConfig := run_config search config events
  have next : (machine search config).next ((machine search config).run events) (.pop now) =
      (((machine search config).run events).pop now).1 := rfl
  rw [← sameConfig] at inTime video
  rcases progress.pop_cases inTime video with ⟨waiting, nothing⟩ | ⟨unit, isUnit, popped, after⟩
  · left
    rw [sameConfig] at waiting
    refine ⟨by rw [nothing], waiting, ?_, ?_⟩
    · rw [Machine.run_snoc, next, nothing]
      exact progress.pop_none
    · rw [returned_pop, nothing, frames]
      exact List.append_nil _
  · right
    have within := (List.getElem?_eq_some_iff.mp isUnit).1
    refine ⟨within, ?_, ?_⟩
    · rw [Machine.run_snoc, next]
      exact after
    · rw [returned_pop, popped, frames, List.take_add_one, isUnit, sameConfig]
      simp

theorem Delivered.push {packet : RtpPacket}
    (delivered : Delivered stream search config events count)
    (unitMem : unit ∈ stream.units) (packetMem : packet ∈ unit.packets) (arrival : SteadyTime) :
    Delivered stream search config (events ++ [.push packet arrival]) count := by
  refine ⟨?_, ?_⟩
  · rw [Machine.run_snoc]
    exact delivered.1.push unitMem packetMem arrival
  · rw [returned_push]
    exact delivered.2

theorem delivered_run (video : config.kind = .video) (events : List Event)
    (onlySent : Stream.OnlySent stream.toStream events)
    (inTime : ∀ past now, past ++ [.pop now] <+: events →
      InTime stream config.targetDelay past now) :
    ∃ count, Delivered stream search config events count := by
  induction events using List.reverseRecOn with
  | nil => exact ⟨0, Progress.create search config, rfl⟩
  | append_singleton past event induction =>
      rcases induction
        (fun packet arrival member => onlySent packet arrival (List.mem_append_left _ member))
        (fun earlier now isPrefix => inTime earlier now (isPrefix.trans (List.prefix_append _ _)))
        with ⟨count, delivered⟩
      cases event with
      | push packet arrival =>
          rcases onlySent packet arrival (by simp) with ⟨unit, unitMem, packetMem⟩
          exact ⟨count, delivered.push unitMem packetMem arrival⟩
      | pop now =>
          rcases delivered.pop video (inTime past now (List.prefix_refl _)) with
            ⟨_, _, same⟩ | ⟨_, more⟩
          · exact ⟨count, same⟩
          · exact ⟨count + 1, more⟩

/-- Once everything is due, a pop finds nothing only after the last unit. -/
theorem Delivered.all_of_none (delivered : Delivered stream search config events count)
    (video : config.kind = .video)
    (allPushed : ∀ unit ∈ stream.units, ∀ packet ∈ unit.packets, WasPushed events packet)
    (due : ∀ packet arrival, (packet, arrival) ∈ pushes events →
      arrival + config.targetDelay ≤ now)
    (nothing : (((machine search config).run events).pop now).2 = none) :
    count = stream.units.length := by
  by_contra different
  have progress := delivered.1
  have within : count < stream.units.length := Nat.lt_of_le_of_ne progress.atMost different
  have isUnit := List.getElem?_eq_getElem within
  have unitMem := mem_of_index isUnit
  have inTime : InTime stream ((machine search config).run events).config.targetDelay events now :=
    fun _ _ unit _ _ isUnit _ _ => allPushed unit (mem_of_index isUnit)
  have stillVideo : ((machine search config).run events).config.kind = .video := by
    rw [run_config, video]
  rcases progress.pop_cases inTime stillVideo with ⟨waiting, _⟩ | ⟨_, _, popped, _⟩
  · have head := List.head_mem (stream.units[count]).nonempty
    rcases progress.kept count _ isUnit (Nat.le_refl _) _ head (allPushed _ unitMem _ head) with
      ⟨frame, member, _⟩
    cases split : ((machine search config).run events).frames.entries with
    | nil =>
        rw [split] at member
        cases member
    | cons entry rest =>
        have waits := waiting entry (by rw [split]; rfl)
        rcases progress.pending entry (by rw [split]; exact List.mem_cons_self) with
          ⟨_, _, _, _, _, _, first, _, isPushed⟩
        have isDue := due _ _ isPushed
        rw [run_config] at waits
        have elapsed := delayElapsed_iff.mpr isDue
        rw [waits] at elapsed
        cases elapsed
  · rw [nothing] at popped
    cases popped

/-- After the last unit nothing is pending. -/
theorem Delivered.nothing_left (delivered : Delivered stream search config events count)
    (all : count = stream.units.length) (now : SteadyTime) :
    (((machine search config).run events).pop now).2 = none := by
  have progress := delivered.1
  cases split : ((machine search config).run events).frames.entries with
  | nil =>
      rw [JitterBuffer.pop, split]
      rfl
  | cons entry rest =>
      rcases progress.pending entry (by rw [split]; exact List.mem_cons_self) with
        ⟨index, unit, isUnit, le, _⟩
      have within := (List.getElem?_eq_some_iff.mp isUnit).1
      omega

/-- Pops at which everything is due return one unit each, as long as there are
any. -/
theorem Delivered.pops (delivered : Delivered stream search config events count)
    (video : config.kind = .video)
    (allPushed : ∀ unit ∈ stream.units, ∀ packet ∈ unit.packets, WasPushed events packet)
    (pops : List SteadyTime)
    (due : ∀ now ∈ pops, ∀ packet arrival, (packet, arrival) ∈ pushes events →
      arrival + config.targetDelay ≤ now) :
    ∃ total, Delivered stream search config (events ++ pops.map .pop) total ∧
      pushes (events ++ pops.map .pop) = pushes events ∧
      min stream.units.length pops.length ≤ total := by
  induction pops using List.reverseRecOn with
  | nil =>
      refine ⟨count, ?_, ?_, by simp⟩
      · rw [List.map_nil, List.append_nil]
        exact delivered
      · rw [List.map_nil, List.append_nil]
  | append_singleton pops now induction =>
      rcases induction fun earlier member => due earlier (List.mem_append_left _ member) with
        ⟨total, soFar, samePushes, atLeast⟩
      have pushedBefore : ∀ unit ∈ stream.units, ∀ packet ∈ unit.packets,
          WasPushed (events ++ pops.map .pop) packet := by
        intro unit unitMem packet packetMem
        rw [WasPushed, samePushes]
        exact allPushed unit unitMem packet packetMem
      have inTime : InTime stream config.targetDelay (events ++ pops.map .pop) now :=
        fun _ _ unit _ _ isUnit _ _ => pushedBefore unit (mem_of_index isUnit)
      have dueNow := due now (by simp)
      rw [← samePushes] at dueNow
      rw [List.map_append, List.map_singleton, ← List.append_assoc, List.length_append,
        List.length_singleton, pushes_pop, samePushes]
      rcases soFar.pop video inTime with ⟨nothing, _, same⟩ | ⟨within, more⟩
      · have all := soFar.all_of_none video pushedBefore dueNow nothing
        exact ⟨total, same, rfl, by omega⟩
      · exact ⟨total + 1, more, rfl, by omega⟩

/-- When the last of these pops returns nothing, all units have been returned. -/
theorem Delivered.drained (delivered : Delivered stream search config events count)
    (video : config.kind = .video)
    (allPushed : ∀ unit ∈ stream.units, ∀ packet ∈ unit.packets, WasPushed events packet)
    {earlier : List SteadyTime} {now : SteadyTime}
    (due : ∀ time ∈ earlier ++ [now], ∀ packet arrival, (packet, arrival) ∈ pushes events →
      arrival + config.targetDelay ≤ time)
    (nothing : (((machine search config).run (events ++ earlier.map .pop)).pop now).2 = none) :
    Delivered stream search config (events ++ earlier.map .pop) stream.units.length ∧
      returned search config (events ++ (earlier ++ [now]).map .pop) =
        returned search config (events ++ earlier.map .pop) := by
  rcases delivered.pops video allPushed earlier
    (fun time member => due time (List.mem_append_left _ member)) with
    ⟨total, before, samePushes, _⟩
  have all : total = stream.units.length := by
    apply before.all_of_none video
    · intro unit unitMem packet packetMem
      rw [WasPushed, samePushes]
      exact allPushed unit unitMem packet packetMem
    · rw [samePushes]
      exact due now (by simp)
    · exact nothing
  rw [all] at before
  refine ⟨before, ?_⟩
  rw [List.map_append, List.map_singleton, ← List.append_assoc, returned_pop, nothing]
  exact List.append_nil _

end OrderedStream

/-! ## From packetizer to playout -/

/-- `returned` is what the access unit `frame` becomes at the receiver. -/
def Delivers (frame returned : EncodedFrame) : Prop :=
  returned.rtpTimestamp = frame.rtpTimestamp ∧
    ∃ nals, nalUnits frame.payload = .ok nals ∧ returned.payload = annexB nals

/-- Before a pop at `now`, all packets of a unit have been pushed whenever one of
that unit or of a later one arrived at or before `now - targetDelay`. -/
def OnTime (sent : List (List RtpPacket)) (targetDelay : SteadyTime) (past : List Event)
    (now : SteadyTime) : Prop :=
  ∀ (index position : Nat) (packets later : List RtpPacket), index ≤ position →
    sent[index]? = some packets → sent[position]? = some later →
    (∃ packet ∈ later, ∃ arrival, (packet, arrival) ∈ pushes past ∧
      arrival ≤ now - targetDelay) →
    ∀ packet ∈ packets, WasPushed past packet

theorem Transmission.exists_orderedStream {handler : RTPHandler} {frames : List EncodedFrame}
    {sent : List (List RtpPacket)} (transmission : Transmission handler frames sent)
    (inOrder : (frames.map EncodedFrame.rtpTimestamp).Pairwise fun earlier later =>
      1 ≤ forward earlier later ∧ forward earlier later < 2 ^ 31) :
    ∃ stream : OrderedStream handler.maxPayload, stream.units.map SentUnit.packets = sent ∧
      List.Forall₂ SentUnit.Carries frames stream.units := by
  have before : (frames.map EncodedFrame.rtpTimestamp).Pairwise fun earlier later =>
      tsLessThan earlier later = true := by
    apply inOrder.imp
    intro earlier later distance
    rw [tsLessThan_eq_precedes, precedes_iff]
    exact distance
  have distinct : (frames.map EncodedFrame.rtpTimestamp).Nodup := by
    apply inOrder.imp
    intro earlier later distance
    exact forward_pos.mp distance.1
  have window : FitHalf (frames.map EncodedFrame.rtpTimestamp) := by
    cases split : frames.map EncodedFrame.rtpTimestamp with
    | nil => exact ⟨0, fun _ member => nomatch member⟩
    | cons first rest =>
        rw [split] at inOrder
        refine ⟨first, fun timestamp member => ?_⟩
        rcases List.mem_cons.mp member with same | later
        · rw [same, InHalf, forward_self]
          decide
        · exact ((List.pairwise_cons.mp inOrder).1 timestamp later).2
  rcases transmission.exists_stream distinct window with ⟨stream, arePackets, carry⟩
  rw [← SentUnit.timestamps_eq carry] at before
  exact ⟨⟨stream, List.pairwise_map.mp before⟩, arePackets, carry⟩

theorem delivers_of_carry {maxPayload : Nat} {frames : List EncodedFrame}
    {units : List (SentUnit maxPayload)} (carry : List.Forall₂ SentUnit.Carries frames units)
    (videoCodec : VideoCodec) :
    List.Forall₂ Delivers frames
      (units.map fun unit => videoFrame videoCodec unit.timestamp unit.nals) := by
  induction carry with
  | nil => exact .nil
  | cons first _ induction =>
      exact .cons ⟨first.timestamp, _, first.nals, rfl⟩ induction

/-- Access units that one handler packetizes, whose packets are all pushed, in
any order and with any copies, each in time: the frames that pops return are a
prefix of those that were sent, no first copy of a packet is refused, and pops
after the delay of the last push return all of them and then nothing. -/
theorem transparent_delivery {handler : RTPHandler} {frames : List EncodedFrame}
    {sent : List (List RtpPacket)} (transmission : Transmission handler frames sent)
    (inOrder : (frames.map EncodedFrame.rtpTimestamp).Pairwise fun earlier later =>
      1 ≤ forward earlier later ∧ forward earlier later < 2 ^ 31)
    (search : FrameSearch) (config : JitterBufferConfig) (video : config.kind = .video)
    (events : List Event)
    (onlySent : ∀ packet arrival, .push packet arrival ∈ events → packet ∈ sent.flatten)
    (onTime : ∀ past now, past ++ [.pop now] <+: events →
      OnTime sent config.targetDelay past now) :
    (∃ count, List.Forall₂ Delivers (frames.take count) (returned search config events)) ∧
    (∀ past packet arrival, past ++ [.push packet arrival] <+: events →
      ¬WasPushed past packet → (((machine search config).run past).push packet arrival).2 = true) ∧
    ((∀ packets ∈ sent, ∀ packet ∈ packets, WasPushed events packet) →
      ∀ pops : List SteadyTime, (∀ now ∈ pops, ∀ packet arrival,
          (packet, arrival) ∈ pushes events → arrival + config.targetDelay ≤ now) →
        (∀ earlier now, pops = earlier ++ [now] →
          (((machine search config).run (events ++ earlier.map .pop)).pop now).2 = none →
          List.Forall₂ Delivers frames (returned search config (events ++ pops.map .pop))) ∧
        (frames.length ≤ pops.length →
          List.Forall₂ Delivers frames (returned search config (events ++ pops.map .pop)) ∧
          ∀ now, (((machine search config).run (events ++ pops.map .pop)).pop now).2 = none)) := by
  rcases transmission.exists_orderedStream inOrder with ⟨stream, arePackets, carry⟩
  have sameLength := carry.length_eq
  have fromStream : Stream.OnlySent stream.toStream events := by
    apply Stream.onlySent_of_flatten
    rw [arePackets]
    exact onlySent
  have packetsOf : ∀ (index : Nat) (unit : SentUnit handler.maxPayload),
      stream.units[index]? = some unit → sent[index]? = some unit.packets := by
    intro index unit isUnit
    rw [← arePackets, List.getElem?_map, isUnit]
    rfl
  have inTime : ∀ past now, past ++ [.pop now] <+: events →
      OrderedStream.InTime stream config.targetDelay past now :=
    fun past now isPrefix index position unit later le isUnit isLater =>
      onTime past now isPrefix index position unit.packets later.packets le
        (packetsOf index unit isUnit) (packetsOf position later isLater)
  have deliversAll : ∀ later count, OrderedStream.Delivered stream search config later count →
      count = stream.units.length →
        List.Forall₂ Delivers frames (returned search config later) := by
    intro later count delivered all
    rw [delivered.2, all, List.take_length]
    exact delivers_of_carry carry config.videoCodec
  refine ⟨?_, ?_, ?_⟩
  · rcases OrderedStream.delivered_run video events fromStream inTime with ⟨count, delivered⟩
    refine ⟨count, ?_⟩
    rw [delivered.2]
    exact delivers_of_carry (List.forall₂_take count carry) config.videoCodec
  · intro past packet arrival isPrefix firstCopy
    rcases OrderedStream.delivered_run video past
      (fun packet arrival member => fromStream packet arrival
        (isPrefix.subset (List.mem_append_left _ member)))
      (fun earlier now shorter => inTime earlier now
        (shorter.trans ((List.prefix_append _ _).trans isPrefix))) with ⟨count, delivered⟩
    rcases fromStream packet arrival (isPrefix.subset (by simp)) with ⟨unit, unitMem, packetMem⟩
    exact delivered.1.accepts_first unitMem packetMem firstCopy
  · intro allPushed pops due
    rcases OrderedStream.delivered_run video events fromStream inTime with ⟨count, delivered⟩
    have unitsPushed : ∀ unit ∈ stream.units, ∀ packet ∈ unit.packets,
        WasPushed events packet := by
      intro unit unitMem
      apply allPushed
      rw [← arePackets]
      exact List.mem_map_of_mem unitMem
    refine ⟨fun earlier now isLast nothing => ?_, fun enough => ?_⟩
    · rw [isLast] at due ⊢
      rcases delivered.drained video unitsPushed due nothing with ⟨before, sameFrames⟩
      rw [sameFrames]
      exact deliversAll _ _ before rfl
    · rcases delivered.pops video unitsPushed pops due with ⟨total, after, _, atLeast⟩
      have all : total = stream.units.length := by
        have atMost := after.1.atMost
        omega
      exact ⟨deliversAll _ _ after all, after.nothing_left all⟩

/-! ### Two units across the wraps -/

/-- Payloads of four bytes, and the last sequence number before the wrap. -/
def wrapHandler : RTPHandler := { RTPHandler.create 96 7 kVideoRtpClockHz 4 with seq := 0xFFFF }

/-- An IDR slice that takes two fragments. -/
def idrFrame : EncodedFrame where
  videoCodec := .h264
  rtpTimestamp := 0xFFFFFF00
  payload := [0, 0, 0, 1, 0x65, 1, 2, 3, 4]

def nextFrame : EncodedFrame where
  videoCodec := .h264
  rtpTimestamp := 0xFFFFFF00 + 3000
  payload := [0, 0, 0, 1, 0x41, 9]

def headFragment : RtpPacket where
  payloadType := 96
  ssrc := 7
  timestamp := 0xFFFFFF00
  sequenceNumber := 0xFFFF
  payload := [0x7C, 0x85, 1, 2]

def tailFragment : RtpPacket where
  payloadType := 96
  ssrc := 7
  timestamp := 0xFFFFFF00
  sequenceNumber := 0
  marker := true
  payload := [0x7C, 0x45, 3, 4]

def nextSlice : RtpPacket where
  payloadType := 96
  ssrc := 7
  timestamp := 0xFFFFFF00 + 3000
  sequenceNumber := 1
  marker := true
  payload := [0x41, 9]

theorem wrap_transmission :
    Transmission wrapHandler [idrFrame, nextFrame] [[headFragment, tailFragment], [nextSlice]] where
  video := by simp [idrFrame, nextFrame]
  packetized := rfl
  few := by simp
  noFragment := by
    have idrUnits : nalUnits idrFrame.payload = .ok [[0x65, 1, 2, 3, 4]] := rfl
    have nextUnits : nalUnits nextFrame.payload = .ok [[0x41, 9]] := rfl
    intro frame member nals found nal nalMem _
    rcases List.mem_cons.mp member with same | isNext
    · rw [same, idrUnits] at found
      cases found
      rw [List.mem_singleton.mp nalMem]
      decide
    · rw [List.mem_singleton.mp isNext, nextUnits] at found
      cases found
      rw [List.mem_singleton.mp nalMem]
      decide

/-- The last packet comes first, and one of the others twice. -/
def wrapPushes : List Event :=
  [.push nextSlice 0, .push tailFragment 3, .push headFragment 4, .push tailFragment 6]

theorem wasPushed_wrap : ∀ packets ∈ [[headFragment, tailFragment], [nextSlice]],
    ∀ packet ∈ packets, WasPushed wrapPushes packet := by
  intro packets isMember packet packetMem
  have isOne : packet = headFragment ∨ packet = tailFragment ∨ packet = nextSlice := by
    simp only [List.mem_cons, List.not_mem_nil, or_false] at isMember
    rcases isMember with rfl | rfl
    · exact (List.mem_pair.mp packetMem).imp_right .inl
    · exact .inr (.inr (List.mem_singleton.mp packetMem))
  rcases isOne with rfl | rfl | rfl
  · exact ⟨4, by decide⟩
  · exact ⟨3, by decide⟩
  · exact ⟨0, by decide⟩

/-- Popped once in time and twice more. -/
theorem transparent_delivery_out_of_order :
    List.Forall₂ Delivers [idrFrame, nextFrame] (returned (.linear _) {}
      (wrapPushes ++ [.pop 50000000] ++ [.pop 50000006, .pop 50000007])) := by
  have delivery := transparent_delivery wrap_transmission (by decide) (.linear _) {} rfl
    (wrapPushes ++ [.pop 50000000]) (by
      intro packet arrival member
      simp only [wrapPushes, List.cons_append, List.nil_append, List.mem_cons, Event.push.injEq,
        reduceCtorEq, List.not_mem_nil, or_false] at member
      rcases member with ⟨same, _⟩ | ⟨same, _⟩ | ⟨same, _⟩ | ⟨same, _⟩ <;> rw [same] <;> decide) (by
      intro past now isPrefix index position packets later le isPackets isLater _ packet packetMem
      have pastIs : past = wrapPushes := by
        rcases past with _ | ⟨first, _ | ⟨second, _ | ⟨third, _ | ⟨fourth, _ | ⟨fifth, rest⟩⟩⟩⟩⟩
        all_goals simp_all [wrapPushes]
      rw [pastIs]
      exact wasPushed_wrap packets (List.mem_of_getElem? isPackets) packet packetMem)
  have allPushed : ∀ packets ∈ [[headFragment, tailFragment], [nextSlice]], ∀ packet ∈ packets,
      WasPushed (wrapPushes ++ [.pop 50000000]) packet := wasPushed_wrap
  apply ((delivery.2.2 allPushed [50000006, 50000007] _).2 (Nat.le_refl 2)).1
  intro now isNow packet arrival isPushed
  have pushedAt : (packet, arrival) ∈ [(nextSlice, (0 : SteadyTime)), (tailFragment, 3),
      (headFragment, 4), (tailFragment, 6)] := isPushed
  have early : arrival ≤ 6 := by
    simp only [List.mem_cons, Prod.mk.injEq, List.not_mem_nil, or_false] at pushedAt
    rcases pushedAt with ⟨_, same⟩ | ⟨_, same⟩ | ⟨_, same⟩ | ⟨_, same⟩ <;> rw [same] <;> decide
  have late : (50000006 : SteadyTime) ≤ now := by
    simp only [List.mem_cons, List.not_mem_nil, or_false] at isNow
    rcases isNow with same | same
    · rw [same]
    · rw [same]
      decide
  exact (Int.add_le_add_right early _).trans late

end Vela
