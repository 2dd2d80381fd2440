import Vela.Network.AudioDelivery

/-! # Audio in any interleaving

Packets of one sound each are pushed while frames are popped. What the pops return
is at every moment the beginning of the accepted sounds in the order of their
timestamps, and a packet is refused only when it is a copy or has been overtaken. -/

namespace Vela

open Foundation SerialNumber PendingFrame JitterBuffer RTPHandler

namespace JitterBuffer

/-! ## The packets that are kept -/

/-- The push of a packet that was stored. -/
def accepted? : Event × Output → Option (RtpPacket × SteadyTime)
  | (.push packet arrival, .pushed true) => some (packet, arrival)
  | _ => none

/-- The packets that a run stored, with their arrivals. -/
def accepted (search : FrameSearch) (config : JitterBufferConfig) (events : List Event) :
    List (RtpPacket × SteadyTime) :=
  ((machine search config).transcript events).filterMap accepted?

section Accepted

variable {search : FrameSearch} {config : JitterBufferConfig} {events : List Event}
  {packet : RtpPacket}
  {arrival : SteadyTime}

theorem accepted_pop (now : SteadyTime) :
    accepted search config (events ++ [.pop now]) = accepted search config events := by
  rw [accepted, Machine.transcript_snoc, List.filterMap_append]
  exact List.append_nil _

theorem accepted_refused
    (refused : (((machine search config).run events).push packet arrival).2 = false) :
    accepted search config (events ++ [.push packet arrival]) = accepted search config events := by
  have output : (machine search config).output ((machine search config).run events)
        (.push packet arrival) =
      .pushed false := congrArg Output.pushed refused
  rw [accepted, Machine.transcript_snoc, List.filterMap_append, output]
  exact List.append_nil _

theorem accepted_stored
    (stored : (((machine search config).run events).push packet arrival).2 = true) :
    accepted search config (events ++ [.push packet arrival]) =
      accepted search config events ++ [(packet, arrival)] := by
  have output : (machine search config).output ((machine search config).run events)
        (.push packet arrival) =
      .pushed true := congrArg Output.pushed stored
  rw [accepted, Machine.transcript_snoc, List.filterMap_append, output]
  rfl

theorem accepted_subset_pushes (search : FrameSearch) (config : JitterBufferConfig)
    (events : List Event) :
    accepted search config events ⊆ pushes events := by
  induction events using List.reverseRecOn with
  | nil => exact List.nil_subset _
  | append_singleton past event induction =>
      cases event with
      | pop now =>
          rw [accepted_pop, pushes_pop]
          exact induction
      | push packet arrival =>
          rw [pushes_push]
          cases verdict : (((machine search config).run past).push packet arrival).2 with
          | false =>
              rw [accepted_refused verdict]
              exact List.subset_append_of_subset_left _ induction
          | true =>
              rw [accepted_stored verdict]
              exact List.append_subset.mpr ⟨List.subset_append_of_subset_left _ induction,
                List.subset_append_right _ _⟩

end Accepted

/-- What a packet of one frame is played out as. -/
def sound (config : JitterBufferConfig) (packet : RtpPacket) : EncodedFrame :=
  playedOut config packet.timestamp packet.payload

end JitterBuffer

/-- Packets of one frame each, in the order of their timestamps, which all lie in
the half circle from `base` on. -/
structure SoundStream where
  packets : List RtpPacket
  base : BitVec 32
  window : ∀ packet ∈ packets, InHalf base packet.timestamp
  inOrder : packets.Pairwise fun earlier later =>
    tsLessThan earlier.timestamp later.timestamp = true

namespace SoundStream

variable {stream : SoundStream} {earlier later packet other : RtpPacket}

def position (stream : SoundStream) (packet : RtpPacket) : Nat :=
  forward stream.base packet.timestamp

theorem before_iff (earlierMem : earlier ∈ stream.packets) (laterMem : later ∈ stream.packets) :
    tsLessThan earlier.timestamp later.timestamp = true ↔
      stream.position earlier < stream.position later := by
  rw [tsLessThan_eq_precedes]
  exact precedes_iff_of_inHalf (by decide) (stream.window _ earlierMem) (stream.window _ laterMem)

theorem eq_of_timestamp (packetMem : packet ∈ stream.packets) (otherMem : other ∈ stream.packets)
    (same : packet.timestamp = other.timestamp) : packet = other := by
  by_contra different
  have apart : ∀ {first second : RtpPacket},
      tsLessThan first.timestamp second.timestamp = true → first.timestamp ≠ second.timestamp := by
    intro first second before
    rw [tsLessThan_eq_precedes, precedes_iff] at before
    exact forward_pos.mp before.1
  have symmetric : Std.Symm fun first second : RtpPacket => first.timestamp ≠ second.timestamp :=
    ⟨fun _ _ apart => apart.symm⟩
  exact (stream.inOrder.imp apart).forall packetMem otherMem different same

/-- The pushes of a run are of packets of the stream. -/
def OnlySent (stream : SoundStream) (events : List Event) : Prop :=
  ∀ packet arrival, .push packet arrival ∈ events → packet ∈ stream.packets

/-! ## Runs -/

/-- Everything about a run of which the frames of `played` have been returned. -/
structure Sounding (stream : SoundStream) (search : FrameSearch) (config : JitterBufferConfig)
    (events : List Event)
    (played : List RtpPacket) : Prop extends Anchored ((machine search config).run events) where
  handedOut : returned search config events = played.map (sound config)
  ofStream : ∀ delivery ∈ accepted search config events, delivery.1 ∈ stream.packets
  rising : played.Pairwise fun earlier later =>
    tsLessThan earlier.timestamp later.timestamp = true
  wasKept : ∀ packet ∈ played, ∃ arrival, (packet, arrival) ∈ accepted search config events
  kept : ∀ delivery ∈ accepted search config events, delivery.1 ∈ played ∨
    delivery.1.timestamp ∈ ((machine search config).run events).frames.keys
  pending : EveryFrame (JitterBuffer.Delivered (accepted search config events))
    ((machine search config).run events)
  emitted : ((machine search config).run events).hasEmitted = true ↔ played ≠ []
  mark : ∀ last ∈ played.getLast?,
    ((machine search config).run events).lastEmittedTs = last.timestamp
  ahead : ∀ packet ∈ played, ∀ key ∈ ((machine search config).run events).frames.keys,
    tsLessThan packet.timestamp key = true
  /-- A packet that was refused is a copy, or something at or after it had gone out. -/
  judged : ∀ packet, WasPushed events packet →
    (∃ arrival, (packet, arrival) ∈ accepted search config events) ∨
      ∃ gone ∈ played, tsLessThan gone.timestamp packet.timestamp = false

namespace Sounding

variable {search : FrameSearch} {config : JitterBufferConfig} {events : List Event}
  {played : List RtpPacket}
  {arrival : SteadyTime}

theorem create (stream : SoundStream) (search : FrameSearch) (config : JitterBufferConfig) :
    Sounding stream search config [] [] where
  toAnchored := Anchored.create search config
  handedOut := rfl
  ofStream := fun _ member => nomatch member
  rising := .nil
  wasKept := fun _ member => nomatch member
  kept := fun _ member => nomatch member
  pending := fun _ member => nomatch member
  emitted := by simp [machine, JitterBuffer.create]
  mark := fun _ member => nomatch member
  ahead := fun _ member => nomatch member
  judged := by
    rintro packet ⟨arrival, member⟩
    cases member

/-- Where a pending frame comes from: the one packet of the stream with its key. -/
theorem exists_packet (sounding : Sounding stream search config events played)
    {entry : BitVec 32 × PendingFrame}
    (member : entry ∈ ((machine search config).run events).frames.entries) :
    ∃ packet arrival, (packet, arrival) ∈ accepted search config events ∧
      packet.timestamp = entry.1 ∧
      ∀ stored ∈ entry.2.packets.entries, stored.2 = packet := by
  have filed := filed_run search config events entry member
  rcases List.exists_mem_of_ne_nil _ filed.nonempty with ⟨first, inside⟩
  rcases (sounding.pending entry member).stored first inside with ⟨arrival, isKept⟩
  have ownKey := sounding.ownKey entry member first inside
  refine ⟨first.2, arrival, isKept, ownKey, ?_⟩
  intro stored also
  rcases (sounding.pending entry member).stored stored also with ⟨_, alsoKept⟩
  apply stream.eq_of_timestamp (sounding.ofStream _ alsoKept) (sounding.ofStream _ isKept)
  rw [sounding.ownKey entry member stored also, ownKey]

theorem exists_of_key (sounding : Sounding stream search config events played) {key : BitVec 32}
    (isKey : key ∈ ((machine search config).run events).frames.keys) :
    ∃ packet arrival, (packet, arrival) ∈ accepted search config events ∧
      packet.timestamp = key := by
  rcases OrderedMap.mem_keys.mp isKey with ⟨frame, member⟩
  rcases sounding.exists_packet member with ⟨packet, arrival, isKept, stamp, _⟩
  exact ⟨packet, arrival, isKept, stamp⟩

theorem played_mem (sounding : Sounding stream search config events played)
    (isPlayed : packet ∈ played) :
    packet ∈ stream.packets := by
  rcases sounding.wasKept packet isPlayed with ⟨arrival, isKept⟩
  exact sounding.ofStream _ isKept

theorem at_most_last (sounding : Sounding stream search config events played)
    {gone last : RtpPacket}
    (gonePlayed : gone ∈ played) (isLast : played.getLast? = some last) :
    stream.position gone ≤ stream.position last := by
  have split := List.dropLast_append_getLast? last isLast
  have rising := sounding.rising
  rw [← split, List.pairwise_append] at rising
  rw [← split] at gonePlayed
  rcases List.mem_append.mp gonePlayed with earlier | isThat
  · have before := rising.2.2 gone earlier last (List.mem_singleton_self last)
    have lastMem := sounding.played_mem (List.mem_of_getLast? isLast)
    have goneMem := sounding.played_mem (List.mem_of_mem_dropLast earlier)
    exact Nat.le_of_lt ((stream.before_iff goneMem lastMem).mp before)
  · rw [List.mem_singleton.mp isThat]

/-- The late test finds whether something at or after the packet has gone out. -/
theorem isLate_iff (sounding : Sounding stream search config events played)
    (packetMem : packet ∈ stream.packets) :
    ((machine search config).run events).isLate packet.timestamp = true ↔
      ∃ gone ∈ played, tsLessThan gone.timestamp packet.timestamp = false := by
  cases split : played.getLast? with
  | none =>
      have nothing := List.getLast?_eq_none_iff.mp split
      have notEmitted : ((machine search config).run events).hasEmitted = false :=
        Bool.eq_false_iff.mpr fun emitted => sounding.emitted.mp emitted nothing
      simp [isLate, notEmitted, nothing]
  | some last =>
      have lastPlayed := List.mem_of_getLast? split
      have lastMem := sounding.played_mem lastPlayed
      have emitted := sounding.emitted.mpr (List.ne_nil_of_mem lastPlayed)
      have late : ((machine search config).run events).isLate packet.timestamp = true ↔
          stream.position packet ≤ stream.position last := by
        rw [isLate, emitted, sounding.mark last split, Bool.true_and, Bool.or_eq_true, beq_iff_eq,
          stream.before_iff packetMem lastMem, Nat.le_iff_lt_or_eq, or_comm]
        apply or_congr_right
        exact ⟨fun same => congrArg (forward stream.base) same,
          fun same => forward_injective stream.base same⟩
      rw [late]
      constructor
      · intro notAfter
        refine ⟨last, lastPlayed, Bool.eq_false_iff.mpr fun before => ?_⟩
        exact absurd ((stream.before_iff lastMem packetMem).mp before) (Nat.not_lt.mpr notAfter)
      · rintro ⟨gone, gonePlayed, notBefore⟩
        have goneMem := sounding.played_mem gonePlayed
        have atMost : stream.position packet ≤ stream.position gone := by
          apply Nat.not_lt.mp
          rw [← stream.before_iff goneMem packetMem, notBefore]
          exact Bool.false_ne_true
        exact Nat.le_trans atMost (sounding.at_most_last gonePlayed split)

theorem fits (sounding : Sounding stream search config events played)
    (packetMem : packet ∈ stream.packets) :
    FitHalf (packet.timestamp :: ((machine search config).run events).frames.keys) := by
  refine ⟨stream.base, fun key member => ?_⟩
  rcases List.mem_cons.mp member with isNew | old
  · rw [isNew]
    exact stream.window packet packetMem
  · rcases sounding.exists_of_key old with ⟨stored, arrival, isKept, stamp⟩
    rw [← stamp]
    exact stream.window stored (sounding.ofStream _ isKept)

/-- A packet that is held already was accepted before. -/
theorem kept_of_holds (sounding : Sounding stream search config events played)
    (packetMem : packet ∈ stream.packets)
    (holds : (((machine search config).run events).pending packet.timestamp arrival).holds
      packet.sequenceNumber = true) :
    ∃ earlier, (packet, earlier) ∈ accepted search config events := by
  have ordered := (tsOrder_iff_fitHalf _).mpr (sounding.fits packetMem)
  have isEntry := (OrderedMap.find?_eq_some_iff sounding.sorted ordered).mp (find?_of_holds holds)
  rcases sounding.exists_packet isEntry with ⟨stored, earlier, isKept, stamp, _⟩
  have same := stream.eq_of_timestamp (sounding.ofStream _ isKept) packetMem stamp
  exact ⟨earlier, same ▸ isKept⟩

/-- And the frame that is pending under its timestamp holds it. -/
theorem holds_of_key (sounding : Sounding stream search config events played)
    (packetMem : packet ∈ stream.packets)
    (isKey : packet.timestamp ∈ ((machine search config).run events).frames.keys) :
    (((machine search config).run events).pending packet.timestamp arrival).holds
      packet.sequenceNumber = true := by
  have ordered := (tsOrder_iff_fitHalf _).mpr (sounding.fits packetMem)
  rcases OrderedMap.mem_keys.mp isKey with ⟨frame, isEntry⟩
  have found := (OrderedMap.find?_eq_some_iff sounding.sorted ordered).mpr isEntry
  have filed := filed_run search config events _ isEntry
  rcases sounding.exists_packet isEntry with ⟨stored, earlier, isKept, stamp, only⟩
  have same := stream.eq_of_timestamp (sounding.ofStream _ isKept) packetMem stamp
  rcases OrderedMap.mem_keys.mp filed.minHeld with ⟨first, inside⟩
  have isFirst : first = packet := (only _ inside).trans same
  have ownNumber : first.sequenceNumber = frame.minSeq := filed.numbered _ inside
  rw [JitterBuffer.pending, found, Option.getD_some, anchor,
    List.isEmpty_eq_false_iff.mpr filed.nonempty, if_neg Bool.false_ne_true, filed.holds_iff,
    ← isFirst, ownNumber]
  exact filed.minHeld

/-- The frame that takes an accepted packet. -/
theorem delivered_insert (sounding : Sounding stream search config events played)
    (packet : RtpPacket)
    (arrival : SteadyTime) :
    JitterBuffer.Delivered (accepted search config events ++ [(packet, arrival)])
      ((((machine search config).run events).pending packet.timestamp arrival).insert packet) := by
  have both : EveryFrame (fun frame => Filed frame ∧
      JitterBuffer.Delivered (accepted search config events) frame)
      ((machine search config).run events) :=
    fun entry member => ⟨filed_run search config events entry member, sounding.pending entry member⟩
  apply JitterBuffer.Delivered.insert
  rcases both.pending (fun _ holds => holds.1) packet.timestamp arrival with fresh | ⟨_, delivered⟩
  · rw [fresh]
    exact ⟨fun _ inside => absurd inside List.not_mem_nil, (packet, arrival), by simp, rfl⟩
  · exact delivered.later (packet, arrival)

theorem push (sounding : Sounding stream search config events played)
    (packetMem : packet ∈ stream.packets)
    (arrival : SteadyTime) :
    Sounding stream search config (events ++ [.push packet arrival]) played := by
  have run : (machine search config).run (events ++ [.push packet arrival]) =
      (((machine search config).run events).push packet arrival).1 := Machine.run_snoc _ _ _
  have handed := (returned_push search config events packet arrival).trans sounding.handedOut
  rcases push_cases ((machine search config).run events) packet arrival with
    ⟨stats, refused, reason⟩ | ⟨stats, stored, inTime, notHeld⟩
  · have same := accepted_refused (congrArg Prod.snd refused)
    rw [refused] at run
    refine ⟨?_, handed, ?_, sounding.rising, ?_, ?_, ?_, ?_, ?_, ?_, ?_⟩
    · rw [run]
      exact sounding.toAnchored.counted stats
    · rw [same]
      exact sounding.ofStream
    · rw [same]
      exact sounding.wasKept
    · rw [same, run]
      exact sounding.kept
    · rw [same, run]
      exact sounding.pending
    · rw [run]
      exact sounding.emitted
    · rw [run]
      exact sounding.mark
    · rw [run]
      exact sounding.ahead
    · intro other pushed
      rw [same]
      rcases wasPushed_push.mp pushed with before | isNew
      · exact sounding.judged other before
      · rw [isNew]
        rcases reason with late | holds
        · exact .inr ((sounding.isLate_iff packetMem).mp late)
        · exact .inl (sounding.kept_of_holds packetMem holds)
  · have more := accepted_stored (congrArg Prod.snd stored)
    have fits := sounding.fits packetMem
    have ordered := (tsOrder_iff_fitHalf _).mpr fits
    have newKeys := @OrderedMap.mem_keys_store _ _ _ _ _ sounding.sorted ordered
      ((((machine search config).run events).pending packet.timestamp arrival).insert packet)
    rw [stored] at run
    refine ⟨?_, handed, ?_, sounding.rising, ?_, ?_, ?_, ?_, ?_, ?_, ?_⟩
    · rw [run]
      exact sounding.toAnchored.store inTime fits stats
    · rw [more]
      intro delivery member
      rcases List.mem_append.mp member with old | isNew
      · exact sounding.ofStream delivery old
      · rw [List.mem_singleton.mp isNew]
        exact packetMem
    · rw [more]
      intro other isPlayed
      rcases sounding.wasKept other isPlayed with ⟨earlier, isKept⟩
      exact ⟨earlier, List.mem_append_left _ isKept⟩
    · rw [more, run]
      intro delivery member
      rcases List.mem_append.mp member with old | isNew
      · exact (sounding.kept delivery old).imp_right fun isKey => newKeys.mpr (.inr isKey)
      · rw [List.mem_singleton.mp isNew]
        exact .inr (newKeys.mpr (.inl rfl))
    · have every : EveryFrame
          (JitterBuffer.Delivered (accepted search config events ++ [(packet, arrival)]))
          ((machine search config).run events) :=
        fun entry member => (sounding.pending entry member).later _
      rw [more, run]
      exact (every.store_iff _ _ stats).mpr (sounding.delivered_insert packet arrival)
    · rw [run]
      exact sounding.emitted
    · rw [run]
      exact sounding.mark
    · rw [run]
      intro gone isPlayed key member
      rcases newKeys.mp member with isNew | old
      · rw [isNew]
        by_contra overtaken
        have late := (sounding.isLate_iff packetMem).mpr
          ⟨gone, isPlayed, Bool.eq_false_iff.mpr overtaken⟩
        rw [inTime] at late
        cases late
      · exact sounding.ahead gone isPlayed key old
    · intro other pushed
      rw [more]
      rcases wasPushed_push.mp pushed with before | isNew
      · exact (sounding.judged other before).imp_left fun ⟨earlier, isKept⟩ =>
          ⟨earlier, List.mem_append_left _ isKept⟩
      · rw [isNew]
        exact .inl ⟨arrival, by simp⟩

/-- A pop that changes nothing. -/
theorem unchanged (sounding : Sounding stream search config events played) {now : SteadyTime}
    (same : ((machine search config).run events).pop now =
      ((machine search config).run events, none)) :
    Sounding stream search config (events ++ [.pop now]) played := by
  have run : (machine search config).run (events ++ [.pop now]) =
      (machine search config).run events :=
    (Machine.run_snoc _ _ _).trans (congrArg Prod.fst same)
  have handed : returned search config (events ++ [.pop now]) = returned search config events := by
    rw [returned_pop, same]
    exact List.append_nil _
  refine ⟨?_, handed.trans sounding.handedOut, ?_, sounding.rising, ?_, ?_, ?_, ?_, ?_, ?_, ?_⟩
  · rw [run]
    exact sounding.toAnchored
  · rw [accepted_pop]
    exact sounding.ofStream
  · rw [accepted_pop]
    exact sounding.wasKept
  · rw [accepted_pop, run]
    exact sounding.kept
  · rw [accepted_pop, run]
    exact sounding.pending
  · rw [run]
    exact sounding.emitted
  · rw [run]
    exact sounding.mark
  · rw [run]
    exact sounding.ahead
  · intro packet pushed
    rw [WasPushed, pushes_pop] at pushed
    rw [accepted_pop]
    exact sounding.judged packet pushed

/-- A pop that returns the sound of the oldest pending frame. -/
theorem hand_out (sounding : Sounding stream search config events played) {now : SteadyTime}
    {key : BitVec 32} {frame : PendingFrame} {rest : List (BitVec 32 × PendingFrame)}
    (split : ((machine search config).run events).frames.entries = (key, frame) :: rest)
    {packet : RtpPacket} (isKept : (packet, arrival) ∈ accepted search config events)
    (stamp : packet.timestamp = key) {stats : JitterStats}
    (popped : ((machine search config).run events).pop now =
      ({ ((machine search config).run events).advance frame rest with stats },
        some (sound config packet))) :
    Sounding stream search config (events ++ [.pop now]) (played ++ [packet]) := by
  have run : (machine search config).run (events ++ [.pop now]) =
      { ((machine search config).run events).advance frame rest with stats } :=
    (Machine.run_snoc _ _ _).trans (congrArg Prod.fst popped)
  have isEntry : (key, frame) ∈ ((machine search config).run events).frames.entries := by
    rw [split]
    exact List.mem_cons_self
  have inRest : ∀ entry ∈ rest, entry ∈ ((machine search config).run events).frames.entries := by
    intro entry member
    rw [split]
    exact List.mem_cons_of_mem _ member
  have restKeys : ∀ other ∈ rest.map Prod.fst,
      other ∈ ((machine search config).run events).frames.keys := by
    intro other member
    rcases List.mem_map.mp member with ⟨entry, isRest, rfl⟩
    exact OrderedMap.mem_keys.mpr ⟨entry.2, inRest entry isRest⟩
  have frameStamp : frame.timestamp = key := sounding.stamped _ isEntry
  have sorted := sounding.sorted
  rw [OrderedMap.Sorted, split, List.pairwise_cons] at sorted
  refine ⟨?_, ?_, ?_, ?_, ?_, ?_, ?_, ?_, ?_, ?_, ?_⟩
  · rw [run]
    exact (sounding.toAnchored.advance split).counted stats
  · rw [returned_pop, popped, sounding.handedOut, List.map_append]
    rfl
  · rw [accepted_pop]
    exact sounding.ofStream
  · rw [List.pairwise_append]
    refine ⟨sounding.rising, List.pairwise_singleton _ _, ?_⟩
    intro gone isPlayed other isLast
    rw [List.mem_singleton.mp isLast, stamp]
    exact sounding.ahead gone isPlayed key (OrderedMap.mem_keys.mpr ⟨frame, isEntry⟩)
  · rw [accepted_pop]
    intro other isPlayed
    rcases List.mem_append.mp isPlayed with before | isLast
    · exact sounding.wasKept other before
    · rw [List.mem_singleton.mp isLast]
      exact ⟨arrival, isKept⟩
  · rw [accepted_pop, run]
    intro delivery member
    rcases sounding.kept delivery member with before | isKey
    · exact .inl (List.mem_append_left _ before)
    · rw [OrderedMap.keys, split, List.map_cons, List.mem_cons] at isKey
      rcases isKey with isFront | later
      · have same := stream.eq_of_timestamp (sounding.ofStream _ member)
          (sounding.ofStream _ isKept) (isFront.trans stamp.symm)
        exact .inl (List.mem_append_right _ (List.mem_singleton.mpr same))
      · exact .inr later
  · rw [accepted_pop, run]
    exact fun entry member => sounding.pending entry (inRest entry member)
  · rw [run]
    simp [JitterBuffer.advance]
  · rw [run]
    intro last isLast
    rw [List.getLast?_concat, Option.mem_some_iff] at isLast
    rw [← isLast, stamp]
    exact frameStamp
  · rw [run]
    intro gone isPlayed other member
    rcases List.mem_append.mp isPlayed with before | isLast
    · exact sounding.ahead gone before other (restKeys other member)
    · rcases List.mem_map.mp member with ⟨entry, isRest, rfl⟩
      rw [List.mem_singleton.mp isLast, stamp]
      exact sorted.1 entry isRest
  · intro other pushed
    rw [WasPushed, pushes_pop] at pushed
    rw [accepted_pop]
    rcases sounding.judged other pushed with wasAccepted | ⟨gone, isPlayed, notBefore⟩
    · exact .inl wasAccepted
    · exact .inr ⟨gone, List.mem_append_left _ isPlayed, notBefore⟩

/-- A pop returns the oldest pending sound if that is due, and nothing otherwise. -/
theorem pop (sounding : Sounding stream search config events played) (audio : config.kind = .audio)
    (now : SteadyTime) :
    (Sounding stream search config (events ++ [.pop now]) played ∧
      (((machine search config).run events).pop now).2 = none ∧
      ∀ entry ∈ ((machine search config).run events).frames.entries.head?,
        delayElapsed config now entry.2 = false) ∨
    ∃ packet, Sounding stream search config (events ++ [.pop now]) (played ++ [packet]) ∧
      (((machine search config).run events).pop now).2 = some (sound config packet) := by
  cases split : ((machine search config).run events).frames.entries with
  | nil =>
      have popped : ((machine search config).run events).pop now =
          ((machine search config).run events, none) := by
        rw [JitterBuffer.pop, split]
        rfl
      refine .inl ⟨sounding.unchanged popped, congrArg Prod.snd popped, ?_⟩
      intro entry isFront
      cases isFront
  | cons entry rest =>
      rcases entry with ⟨key, frame⟩
      have isEntry : (key, frame) ∈ ((machine search config).run events).frames.entries := by
        rw [split]
        exact List.mem_cons_self
      have popped : ((machine search config).run events).pop now =
          popLoop now ((key, frame) :: rest)
          ((machine search config).run events) := by
        rw [JitterBuffer.pop, split]
      rw [popLoop_cons, run_config] at popped
      by_cases elapsed : delayElapsed config now frame = true
      · rcases sounding.exists_packet isEntry with ⟨packet, arrival, isKept, stamp, only⟩
        rw [if_pos elapsed,
          playable_single audio (filed_run search config events _ isEntry) only] at popped
        exact .inr ⟨packet, sounding.hand_out split isKept stamp popped, congrArg Prod.snd popped⟩
      · rw [if_neg elapsed] at popped
        refine .inl ⟨sounding.unchanged popped, congrArg Prod.snd popped, ?_⟩
        intro entry isFront
        cases isFront
        exact Bool.eq_false_iff.mpr elapsed

theorem run (stream : SoundStream) (audio : config.kind = .audio) {events : List Event}
    (onlySent : stream.OnlySent events) :
    ∃ played, Sounding stream search config events played := by
  induction events using List.reverseRecOn with
  | nil => exact ⟨[], create stream search config⟩
  | append_singleton past event induction =>
      rcases induction fun packet arrival member =>
        onlySent packet arrival (List.mem_append_left _ member) with ⟨played, sounding⟩
      cases event with
      | push packet arrival =>
        exact ⟨played, sounding.push (onlySent packet arrival (by simp)) arrival⟩
      | pop now =>
          rcases sounding.pop audio now with ⟨same, _⟩ | ⟨packet, more, _⟩
          · exact ⟨played, same⟩
          · exact ⟨_, more⟩

/-! ## What has come out -/

/-- The accepted packets of which the frame is still pending. -/
def waiting (search : FrameSearch) (config : JitterBufferConfig) (events : List Event)
    (stream : SoundStream) :
    List RtpPacket :=
  (deliveredOf stream.packets (accepted search config events)).filter fun packet =>
    packet.timestamp ∈ ((machine search config).run events).frames.keys

/-- The accepted packets in order are those that have gone out and then those that wait. -/
theorem played_waiting (sounding : Sounding stream search config events played) :
    played ++ waiting search config events stream =
      deliveredOf stream.packets (accepted search config events) := by
  have inOrder : (deliveredOf stream.packets (accepted search config events)).Pairwise
      fun earlier later => tsLessThan earlier.timestamp later.timestamp = true :=
    stream.inOrder.sublist List.filter_sublist
  have split : (played ++ waiting search config events stream).Pairwise
      fun earlier later => tsLessThan earlier.timestamp later.timestamp = true := by
    rw [List.pairwise_append]
    refine ⟨sounding.rising, inOrder.sublist List.filter_sublist, ?_⟩
    intro gone isPlayed packet isWaiting
    exact sounding.ahead gone isPlayed _ (of_decide_eq_true (List.mem_filter.mp isWaiting).2)
  have different : ∀ {earlier later : RtpPacket},
      tsLessThan earlier.timestamp later.timestamp = true → earlier ≠ later := by
    rintro earlier _ before rfl
    rw [tsLessThan_eq_precedes, precedes_irrefl] at before
    cases before
  have members : ∀ packet, packet ∈ played ++ waiting search config events stream ↔
      packet ∈ deliveredOf stream.packets (accepted search config events) := by
    intro packet
    rw [List.mem_append, waiting, List.mem_filter]
    constructor
    · rintro (isPlayed | ⟨isKept, _⟩)
      · exact mem_deliveredOf.mpr ⟨sounding.played_mem isPlayed, sounding.wasKept packet isPlayed⟩
      · exact isKept
    · intro isKept
      rcases (mem_deliveredOf.mp isKept).2 with ⟨arrival, wasKept⟩
      exact (sounding.kept _ wasKept).imp_right fun isKey => ⟨isKept, decide_eq_true isKey⟩
  apply List.Perm.eq_of_pairwise _ split inOrder
  · exact (List.perm_ext_iff_of_nodup (split.imp different) (inOrder.imp different)).mpr members
  · intro earlier later _ _ before after
    rw [tsLessThan_eq_precedes] at before after
    rw [precedes_asymm (by decide) before] at after
    cases after

theorem isPrefix (sounding : Sounding stream search config events played) :
    played <+: deliveredOf stream.packets (accepted search config events) :=
  ⟨_, sounding.played_waiting⟩

/-- When a pop finds nothing although all that arrived is due, nothing is pending. -/
theorem all_of_none (sounding : Sounding stream search config events played)
    (audio : config.kind = .audio) {now : SteadyTime}
    (nothing : (((machine search config).run events).pop now).2 = none)
    (due : ∀ packet arrival, (packet, arrival) ∈ pushes events →
      arrival + config.targetDelay ≤ now) :
    played = deliveredOf stream.packets (accepted search config events) := by
  rcases sounding.pop audio now with ⟨_, _, notDue⟩ | ⟨packet, _, something⟩
  · have noKeys : ((machine search config).run events).frames.entries = [] := by
      cases split : ((machine search config).run events).frames.entries with
      | nil => rfl
      | cons entry rest =>
          have isEntry : entry ∈ ((machine search config).run events).frames.entries := by
            rw [split]
            exact List.mem_cons_self
          rcases (sounding.pending entry isEntry).arrived with ⟨delivery, isKept, first⟩
          have elapsed : delayElapsed config now entry.2 = true := by
            rw [delayElapsed_iff, ← first]
            exact due _ _ (accepted_subset_pushes search config events isKept)
          rw [notDue entry (by rw [split]; rfl)] at elapsed
          cases elapsed
    have noneWaits : waiting search config events stream = [] := by
      rw [waiting, OrderedMap.keys, noKeys]
      simp
    have all := sounding.played_waiting
    rw [noneWaits, List.append_nil] at all
    exact all
  · rw [nothing] at something
    cases something

/-- A packet is accepted exactly if it is the first copy and nothing at or after it
has gone out. -/
theorem accepts_iff (sounding : Sounding stream search config events played)
    (packetMem : packet ∈ stream.packets) (arrival : SteadyTime) :
    (((machine search config).run events).push packet arrival).2 = true ↔
      ¬WasPushed events packet ∧
        ∀ frame ∈ returned search config events,
          tsLessThan frame.rtpTimestamp packet.timestamp = true := by
  have overtaken : (∀ frame ∈ returned search config events,
      tsLessThan frame.rtpTimestamp packet.timestamp = true) ↔
        ((machine search config).run events).isLate packet.timestamp = false := by
    rw [Bool.eq_false_iff, ne_eq, sounding.isLate_iff packetMem, sounding.handedOut]
    simp [sound, JitterBuffer.playedOut]
  rw [overtaken]
  rcases push_cases ((machine search config).run events) packet arrival with
    ⟨stats, refused, reason⟩ | ⟨stats, stored, inTime, notHeld⟩
  · rw [refused]
    refine ⟨nofun, fun ⟨isFirst, inTime⟩ => ?_⟩
    rcases reason with late | holds
    · rw [inTime] at late
      cases late
    · rcases sounding.kept_of_holds packetMem holds with ⟨earlier, isKept⟩
      exact absurd ⟨earlier, accepted_subset_pushes search config events isKept⟩ isFirst
  · rw [stored]
    refine ⟨fun _ => ⟨fun again => ?_, inTime⟩, fun _ => rfl⟩
    have notGone : ¬∃ gone ∈ played, tsLessThan gone.timestamp packet.timestamp = false := by
      rw [← sounding.isLate_iff packetMem, inTime]
      exact Bool.false_ne_true
    rcases sounding.judged packet again with ⟨earlier, isKept⟩ | gone
    · rcases sounding.kept _ isKept with isPlayed | isKey
      · refine notGone ⟨packet, isPlayed, ?_⟩
        rw [tsLessThan_eq_precedes]
        exact precedes_irrefl _
      · exact absurd notHeld (by simp [sounding.holds_of_key packetMem isKey])
    · exact notGone gone

end Sounding

/-! ## From the packetizer -/

/-- What a handler makes of Opus frames whose timestamps advance. -/
theorem exists_of_opus {handler : RTPHandler} {frames : List EncodedFrame}
    {sent : List (List RtpPacket)} (opus : ∀ frame ∈ frames, IsOpus frame)
    (newer : (frames.map EncodedFrame.rtpTimestamp).IsChain fun earlier later =>
      tsLessThan earlier later = true)
    (window : FitHalf (frames.map EncodedFrame.rtpTimestamp))
    (packetized : handler.packetizeAll frames = .ok sent) :
    ∃ stream : SoundStream, sent = stream.packets.map (fun packet => [packet]) ∧
      List.Forall₂ CarriesOpus frames stream.packets := by
  rcases handler.packetizeAll_opus frames opus with ⟨packets, arePackets, carry⟩
  rw [packetized] at arePackets
  have stamps : packets.map RtpPacket.timestamp = frames.map EncodedFrame.rtpTimestamp := by
    rw [← List.forall₂_eq_eq_eq, List.forall₂_map_left_iff, List.forall₂_map_right_iff]
    exact carry.flip.imp fun _ _ carries => carries.timestamp
  have inOrder := pairwise_of_chain window newer
  rcases window with ⟨base, inside⟩
  rw [← stamps] at inOrder inside
  exact ⟨{ packets, base, inOrder := List.pairwise_map.mp inOrder,
           window := fun packet member => inside _ (List.mem_map_of_mem member) },
    Except.ok.inj arePackets, carry⟩

end SoundStream

/-- What a run makes of `frames`, of which `sent` are the packets. -/
structure PlaysOut (search : FrameSearch) (config : JitterBufferConfig) (frames : List EncodedFrame)
    (sent : List (List RtpPacket)) (events : List Event) : Prop where
  /-- The beginning of the frames whose packet was accepted, in order and intact. -/
  inOrder : returned search config events <+:
    (heard frames sent (accepted search config events)).map fun frame =>
    playedOut config frame.rtpTimestamp frame.payload
  /-- A packet is accepted exactly if it is the first copy and no frame at or after it
  has been returned. -/
  accepts : ∀ past packet arrival, past ++ [.push packet arrival] <+: events →
    ((((machine search config).run past).push packet arrival).2 = true ↔
      ¬WasPushed past packet ∧
        ∀ frame ∈ returned search config past,
          tsLessThan frame.rtpTimestamp packet.timestamp = true)
  /-- All of them have been returned when a pop finds nothing after the delay of the
  last arrival. -/
  drained : ∀ past now, past ++ [.pop now] <+: events →
    (((machine search config).run past).pop now).2 = none →
    (∀ packet arrival, (packet, arrival) ∈ pushes past → arrival + config.targetDelay ≤ now) →
    returned search config past = (heard frames sent (accepted search config past)).map fun frame =>
      playedOut config frame.rtpTimestamp frame.payload

theorem SoundStream.playsOut {stream : SoundStream} {frames : List EncodedFrame}
    (carry : List.Forall₂ CarriesOpus frames stream.packets) {search : FrameSearch}
    {config : JitterBufferConfig} (audio : config.kind = .audio) {events : List Event}
    (onlySent : stream.OnlySent events) :
    PlaysOut search config frames (stream.packets.map fun packet => [packet]) events := by
  have before : ∀ past, past <+: events → ∃ played, stream.Sounding search config past played :=
    fun past isPrefix => SoundStream.Sounding.run stream audio
      fun packet arrival member => onlySent packet arrival (isPrefix.subset member)
  refine ⟨?_, ?_, ?_⟩
  · rcases before events (List.prefix_refl _) with ⟨played, sounding⟩
    rw [sounding.handedOut, heard_played config carry]
    exact sounding.isPrefix.map _
  · intro past packet arrival isPrefix
    rcases before past ((List.prefix_append _ _).trans isPrefix) with ⟨played, sounding⟩
    exact sounding.accepts_iff (onlySent packet arrival (isPrefix.subset (by simp))) arrival
  · intro past now isPrefix nothing due
    rcases before past ((List.prefix_append _ _).trans isPrefix) with ⟨played, sounding⟩
    rw [sounding.handedOut, heard_played config carry, sounding.all_of_none audio nothing due]
    rfl

/-- Opus frames that one handler packetizes, of which any packets are pushed, in any
order and any number of times, with pops in between: the pops return the beginning of
the frames that were accepted, in order, once each and intact, and all of them in the
end. -/
theorem audio_playout {handler : RTPHandler} {frames : List EncodedFrame}
    {sent : List (List RtpPacket)} (opus : ∀ frame ∈ frames, IsOpus frame)
    (newer : (frames.map EncodedFrame.rtpTimestamp).IsChain fun earlier later =>
      tsLessThan earlier later = true)
    (window : FitHalf (frames.map EncodedFrame.rtpTimestamp))
    (packetized : handler.packetizeAll frames = .ok sent)
    (search : FrameSearch) (config : JitterBufferConfig) (audio : config.kind = .audio)
    (events : List Event)
    (onlySent : ∀ packet arrival, .push packet arrival ∈ events → packet ∈ sent.flatten) :
    PlaysOut search config frames sent events := by
  rcases SoundStream.exists_of_opus opus newer window packetized with ⟨stream, rfl, carry⟩
  apply stream.playsOut carry audio
  intro packet arrival member
  have listed := onlySent packet arrival member
  rw [← List.flatMap_def, List.flatMap_singleton'] at listed
  exact listed

/-- Of three frames across the wrap the second is overtaken by the third. -/
theorem audio_playout_overtaken :
    let frameAt (timestamp : BitVec 32) (payload : Bytes) : EncodedFrame :=
      { kind := .audio, audioCodec := .opus, rtpTimestamp := timestamp, payload }
    let packetAt (sequenceNumber : BitVec 16) (timestamp : BitVec 32) (payload : Bytes) :
        RtpPacket :=
      { payloadType := 111, ssrc := 2, sequenceNumber, timestamp, marker := true, payload }
    let past : List Event := [.push (packetAt 65534 4294966272 [1]) 0, .push (packetAt 0 896 [3]) 5,
      .pop 50000005, .pop 50000005, .push (packetAt 65535 4294967232 [2]) 50000007]
    returned (.linear _) { kind := .audio } past = [frameAt 4294966272 [1], frameAt 896 [3]] := by
  intro frameAt packetAt past
  have playout := @audio_playout { RTPHandler.create 111 2 with seq := 65534 }
    [frameAt 4294966272 [1], frameAt 4294967232 [2], frameAt 896 [3]]
    [[packetAt 65534 4294966272 [1]], [packetAt 65535 4294967232 [2]], [packetAt 0 896 [3]]]
    (by
      intro frame member
      simp only [List.mem_cons, List.not_mem_nil, or_false] at member
      rcases member with rfl | rfl | rfl <;> exact ⟨rfl, rfl, by decide⟩)
    (by decide) (by
      refine ⟨4294966272, ?_⟩
      intro timestamp member
      simp only [List.map_cons, List.map_nil, List.mem_cons, List.not_mem_nil, or_false] at member
      rcases member with rfl | rfl | rfl <;> decide) rfl (.linear _) { kind := .audio } rfl
    (past ++ [.pop 100000007]) (by
      intro packet arrival member
      simp only [past, List.cons_append, List.nil_append, List.mem_cons, Event.push.injEq,
        reduceCtorEq, List.not_mem_nil, or_false, false_or] at member
      rcases member with ⟨rfl, _⟩ | ⟨rfl, _⟩ | ⟨rfl, _⟩ <;> decide)
  have due : ∀ delivery ∈ pushes past, delivery.2 + 50000000 ≤ (100000007 : SteadyTime) := by decide
  exact (playout.drained past 100000007 (List.prefix_refl _) (by decide)
    fun packet arrival member => due (packet, arrival) member).trans (by decide)

end Vela
