import Vela.Network.JitterBufferSteps

/-! # Completeness of a pending frame

`isComplete` counts the packets of a frame, `gaps` and `pop` walk the arc from
its least to its greatest number. They agree on frames whose numbers lie on that
arc, which is what the updates of `minSeq` and `maxSeq` are for. -/

namespace Vela

open Foundation SerialNumber

namespace PendingFrame

/-- What holds of every pending frame, whatever is pushed. -/
structure Filed (frame : PendingFrame) : Prop where
  started : frame.seqInit = true
  sorted : frame.packets.Sorted
  minHeld : frame.minSeq ∈ frame.packets.keys
  maxHeld : frame.maxSeq ∈ frame.packets.keys
  numbered : ∀ stored ∈ frame.packets.entries, stored.2.sequenceNumber = stored.1

/-- The buffered numbers lie on the arc from the least to the greatest. -/
def OnArc (frame : PendingFrame) : Prop := ∀ seq ∈ frame.packets.keys, seq ∈ frame.arc

structure Tracked (frame : PendingFrame) : Prop extends Filed frame where
  onArc : OnArc frame
  span : forward frame.minSeq frame.maxSeq ≤ half 16

variable {frame : PendingFrame} {packet : RtpPacket} {seq : BitVec 16}

theorem Filed.nonempty (filed : Filed frame) : frame.packets.entries ≠ [] := by
  rcases OrderedMap.mem_keys.mp filed.minHeld with ⟨packet, member⟩
  exact List.ne_nil_of_mem member

theorem Filed.find?_iff (filed : Filed frame) :
    frame.packets.find? seq = some packet ↔ (seq, packet) ∈ frame.packets.entries :=
  OrderedMap.find?_eq_some_iff filed.sorted (seqKeyLess_strict _)

theorem Filed.holds_iff (filed : Filed frame) :
    frame.holds seq = true ↔ seq ∈ frame.packets.keys := by
  rw [holds, Option.isSome_iff_exists, OrderedMap.mem_keys]
  exact exists_congr fun packet => filed.find?_iff

/-! ## Adding a packet -/

theorem mem_keys_insert (sorted : frame.packets.Sorted) :
    seq ∈ (frame.insert packet).packets.keys ↔
      seq = packet.sequenceNumber ∨ seq ∈ frame.packets.keys := by
  rw [insert_packets]
  exact OrderedMap.mem_keys_store sorted (seqKeyLess_strict _)

theorem mem_entries_insert (sorted : frame.packets.Sorted) {entry : BitVec 16 × RtpPacket} :
    entry ∈ (frame.insert packet).packets.entries ↔
      entry = (packet.sequenceNumber, packet) ∨
        (entry.1 ≠ packet.sequenceNumber ∧ entry ∈ frame.packets.entries) := by
  rw [insert_packets]
  exact OrderedMap.mem_store_iff sorted (seqKeyLess_strict _)

theorem insert_first (start : frame.seqInit = false) (packet : RtpPacket) :
    (frame.insert packet).seqInit = true ∧
      (frame.insert packet).minSeq = packet.sequenceNumber ∧
      (frame.insert packet).maxSeq = packet.sequenceNumber := by
  simp [insert, trackSeq, start]

theorem insert_later (started : frame.seqInit = true) (packet : RtpPacket) :
    (frame.insert packet).seqInit = true ∧
      (frame.insert packet).minSeq =
        (if seqLessThan packet.sequenceNumber frame.minSeq then packet.sequenceNumber
          else frame.minSeq) ∧
      (frame.insert packet).maxSeq =
        (if seqLessThan frame.maxSeq packet.sequenceNumber then packet.sequenceNumber
          else frame.maxSeq) := by
  simp [insert, trackSeq, started]

theorem Tracked.insert_fresh (timestamp : BitVec 32) (arrival : SteadyTime) (packet : RtpPacket) :
    Tracked (PendingFrame.insert { timestamp, firstArrival := arrival } packet) := by
  have bounds := @insert_first { timestamp, firstArrival := arrival } rfl packet
  have isKey : packet.sequenceNumber ∈
      (PendingFrame.insert { timestamp, firstArrival := arrival } packet).packets.keys :=
    (mem_keys_insert OrderedMap.sorted_empty).mpr (.inl rfl)
  refine ⟨⟨bounds.1, ?_, ?_, ?_, ?_⟩, ?_, ?_⟩
  · exact List.pairwise_singleton _ _
  · rw [bounds.2.1]
    exact isKey
  · rw [bounds.2.2]
    exact isKey
  · intro stored member
    rw [List.mem_singleton.mp member]
  · intro seq member
    rcases (mem_keys_insert OrderedMap.sorted_empty).mp member with same | old
    · rw [same, arc, bounds.2.1]
      exact first_mem_arc _ _
    · cases old
  · rw [bounds.2.1, bounds.2.2, forward_self]
    exact Nat.zero_le _

theorem Filed.insert (filed : Filed frame) (packet : RtpPacket) : Filed (frame.insert packet) := by
  rcases insert_later filed.started packet with ⟨started, isMin, isMax⟩
  have isKey : packet.sequenceNumber ∈ (frame.insert packet).packets.keys :=
    (mem_keys_insert filed.sorted).mpr (.inl rfl)
  refine ⟨started, ?_, ?_, ?_, ?_⟩
  · rw [insert_packets]
    exact filed.sorted.store (seqKeyLess_strict _) _
  · rw [isMin]
    split
    · exact isKey
    · exact (mem_keys_insert filed.sorted).mpr (.inr filed.minHeld)
  · rw [isMax]
    split
    · exact isKey
    · exact (mem_keys_insert filed.sorted).mpr (.inr filed.maxHeld)
  · intro stored member
    rcases (mem_entries_insert filed.sorted).mp member with new | ⟨_, old⟩
    · rw [new]
    · exact filed.numbered stored old

/-- The number of a packet that a frame stays on its arc with: on the arc
already, or beyond it on exactly one side. -/
def Extends (frame : PendingFrame) (seq : BitVec 16) : Prop :=
  seq ∈ frame.arc ∨ seqLessThan seq frame.minSeq ≠ seqLessThan frame.maxSeq seq

theorem Tracked.insert (tracked : Tracked frame) (grows : Extends frame packet.sequenceNumber) :
    Tracked (frame.insert packet) := by
  rcases insert_later tracked.started packet with ⟨_, isMin, isMax⟩
  have onArc_of : ∀ first last, (frame.insert packet).minSeq = first →
      (frame.insert packet).maxSeq = last → packet.sequenceNumber ∈ SerialNumber.arc first last →
      (∀ seq ∈ frame.arc, seq ∈ SerialNumber.arc first last) → OnArc (frame.insert packet) := by
    intro first last sameMin sameMax new old seq member
    rw [PendingFrame.arc, sameMin, sameMax]
    rcases (mem_keys_insert tracked.sorted).mp member with isNew | isOld
    · rw [isNew]
      exact new
    · exact old seq (tracked.onArc seq isOld)
  by_cases inside : packet.sequenceNumber ∈ frame.arc
  · rcases not_outside_of_mem_arc (by decide) tracked.span inside with ⟨notBefore, notAfter⟩
    rw [seqLessThan_eq_precedes, notBefore, if_neg Bool.false_ne_true] at isMin
    rw [seqLessThan_eq_precedes, notAfter, if_neg Bool.false_ne_true] at isMax
    refine ⟨tracked.toFiled.insert packet, onArc_of _ _ isMin isMax inside fun _ old => old, ?_⟩
    rw [isMin, isMax]
    exact tracked.span
  · have oneSide := grows.resolve_left inside
    rw [seqLessThan_eq_precedes] at oneSide isMin isMax
    cases before : precedes packet.sequenceNumber frame.minSeq with
    | true =>
        have notAfter : precedes frame.maxSeq packet.sequenceNumber = false := by
          rw [before] at oneSide
          exact Bool.eq_false_of_not_eq_true (Ne.symm oneSide)
        rw [before, if_pos rfl] at isMin
        rw [notAfter, if_neg Bool.false_ne_true] at isMax
        rcases arc_grows_back (by decide) inside before notAfter with ⟨covers, span⟩
        refine ⟨tracked.toFiled.insert packet,
          onArc_of _ _ isMin isMax (first_mem_arc _ _) covers, ?_⟩
        rw [isMin, isMax]
        exact span
    | false =>
        have after : precedes frame.maxSeq packet.sequenceNumber = true := by
          rw [before] at oneSide
          exact Bool.eq_true_of_not_eq_false (Ne.symm oneSide)
        rw [before, if_neg Bool.false_ne_true] at isMin
        rw [after, if_pos rfl] at isMax
        rcases arc_grows_forth (by decide) inside before with ⟨covers, span⟩
        refine ⟨tracked.toFiled.insert packet,
          onArc_of _ _ isMin isMax (last_mem_arc _ _) covers, ?_⟩
        rw [isMin, isMax]
        exact span

/-- Otherwise the new number stays off the arc, or takes the place of both ends. -/
theorem extends_of_onArc_insert (tracked : Tracked frame) (onArc : OnArc (frame.insert packet)) :
    Extends frame packet.sequenceNumber := by
  rcases insert_later tracked.started packet with ⟨_, isMin, isMax⟩
  have newHeld := onArc _ ((mem_keys_insert tracked.sorted).mpr (.inl rfl))
  have minHeld := onArc _ ((mem_keys_insert tracked.sorted).mpr (.inr tracked.minHeld))
  rw [PendingFrame.arc, isMin, isMax] at newHeld minHeld
  by_cases inside : packet.sequenceNumber ∈ frame.arc
  · exact .inl inside
  · refine .inr fun same => ?_
    cases after : seqLessThan frame.maxSeq packet.sequenceNumber with
    | true =>
        rw [after] at same
        rw [same, after, if_pos rfl, if_pos rfl, mem_arc, forward_self, Nat.le_zero,
          forward_eq_zero] at minHeld
        apply inside
        rw [minHeld]
        exact first_mem_arc _ _
    | false =>
        rw [after] at same
        rw [same, after, if_neg Bool.false_ne_true, if_neg Bool.false_ne_true] at newHeld
        exact inside newHeld

/-! ## Counting against walking -/

theorem Filed.size_eq_iff (filed : Filed frame) (onArc : OnArc frame) :
    (seqDistance frame.minSeq frame.maxSeq).toNat + 1 = frame.packets.size ↔
      ∀ seq ∈ frame.arc, seq ∈ frame.packets.keys := by
  have nodup := filed.sorted.nodup_keys (seqKeyLess_strict _)
  have sizes : frame.packets.keys.length = frame.packets.size := List.length_map _
  have arcSize : frame.arc.length = (seqDistance frame.minSeq frame.maxSeq).toNat + 1 :=
    arc_length _ _
  have subperm := nodup.subperm onArc
  constructor
  · intro counted seq member
    have sameSize : frame.arc.length ≤ frame.packets.keys.length := by omega
    exact (subperm.perm_of_length_le sameSize).mem_iff.mpr member
  · intro covered
    have atMost := ((arc_nodup frame.minSeq frame.maxSeq).subperm covered).length_le
    have atLeast := subperm.length_le
    have sameArc : frame.arc.length = (SerialNumber.arc frame.minSeq frame.maxSeq).length := rfl
    omega

theorem GapWalk.finish_visit (walk : GapWalk) (seq : BitVec 16) :
    (walk.visit frame seq).finish = [] ↔ walk.finish = [] ∧ frame.holds seq = true := by
  rcases walk with ⟨current, result⟩
  unfold GapWalk.visit GapWalk.finish
  cases frame.holds seq <;> cases current <;> simp

theorem GapWalk.finish_foldl (walk : GapWalk) (seqs : List (BitVec 16)) :
    (seqs.foldl (GapWalk.visit frame) walk).finish = [] ↔
      walk.finish = [] ∧ ∀ seq ∈ seqs, frame.holds seq = true := by
  induction seqs generalizing walk with
  | nil => simp
  | cons seq rest induction =>
      rw [List.foldl_cons, induction, GapWalk.finish_visit, List.forall_mem_cons, and_assoc]

/-- `gaps` finds nothing missing exactly when the walk finds every number. -/
theorem Filed.gaps_eq_nil_iff (filed : Filed frame) :
    frame.gaps = [] ↔ ∀ seq ∈ frame.arc, seq ∈ frame.packets.keys := by
  have nonempty : frame.packets.entries.isEmpty = false :=
    List.isEmpty_eq_false_iff.mpr filed.nonempty
  rw [PendingFrame.gaps, filed.started, nonempty]
  simp only [Bool.not_true, Bool.or_self, Bool.false_eq_true, if_false]
  rw [GapWalk.finish_foldl]
  simp only [GapWalk.finish, Option.toList_none, List.append_nil, true_and, filed.holds_iff]

/-- The walk of `pop` over a full arc takes every packet, in the order of the
numbers. -/
theorem Filed.ordered_of_full (filed : Filed frame)
    (full : ∀ seq ∈ frame.arc, seq ∈ frame.packets.keys) (onArc : OnArc frame) :
    frame.ordered.map RtpPacket.sequenceNumber = frame.arc ∧
      ∀ stored ∈ frame.packets.entries, stored.2 ∈ frame.ordered := by
  constructor
  · have walk : ∀ seqs : List (BitVec 16), (∀ seq ∈ seqs, seq ∈ frame.packets.keys) →
        (seqs.filterMap frame.packets.find?).map RtpPacket.sequenceNumber = seqs := by
      intro seqs
      induction seqs with
      | nil => exact fun _ => rfl
      | cons seq rest induction =>
          intro held
          rcases OrderedMap.mem_keys.mp (held seq List.mem_cons_self) with ⟨packet, member⟩
          have found := filed.find?_iff.mpr member
          have ownNumber : packet.sequenceNumber = seq := filed.numbered _ member
          rw [List.filterMap_cons_some found, List.map_cons, ownNumber,
            induction fun other later => held other (List.mem_cons_of_mem _ later)]
    exact walk frame.arc full
  · intro stored member
    have isKey := OrderedMap.mem_keys.mpr ⟨stored.2, member⟩
    exact List.mem_filterMap.mpr ⟨stored.1, onArc _ isKey, filed.find?_iff.mpr member⟩

end PendingFrame

namespace JitterBuffer

open PendingFrame

theorem isComplete_video {config : JitterBufferConfig} (video : config.kind = .video)
    {frame : PendingFrame} (filed : Filed frame) :
    isComplete config frame = true ↔ frame.hasMarker = true ∧
      (seqDistance frame.minSeq frame.maxSeq).toNat + 1 = frame.packets.size := by
  have nonempty : frame.packets.entries.isEmpty = false :=
    List.isEmpty_eq_false_iff.mpr filed.nonempty
  rw [isComplete, video, nonempty]
  cases frame.hasMarker <;> simp

/-- The two views of a frame's completeness, and what it lets `pop` hand out. -/
structure ViewsAgree (config : JitterBufferConfig) (frame : PendingFrame) : Prop where
  complete_iff : frame.hasMarker = true →
    (isComplete config frame = true ↔
      frame.gaps = [] ∧ ∀ seq ∈ frame.packets.keys, seq ∈ frame.arc)
  handsOut : isComplete config frame = true →
    frame.ordered.map RtpPacket.sequenceNumber = frame.arc ∧
      ∀ stored ∈ frame.packets.entries, stored.2 ∈ frame.ordered

theorem Tracked.viewsAgree {config : JitterBufferConfig} (video : config.kind = .video)
    {frame : PendingFrame} (tracked : Tracked frame) : ViewsAgree config frame := by
  have counted := tracked.size_eq_iff tracked.onArc
  have walked := tracked.gaps_eq_nil_iff
  constructor
  · intro marked
    rw [isComplete_video video tracked.toFiled, counted, walked]
    exact ⟨fun complete => ⟨complete.2, tracked.onArc⟩, fun whole => ⟨marked, whole.1⟩⟩
  · intro complete
    rw [isComplete_video video tracked.toFiled, counted] at complete
    exact tracked.ordered_of_full complete.2 tracked.onArc

/-! ## Runs -/

variable {buffer : JitterBuffer} {packet : RtpPacket} {arrival : SteadyTime}

/-- A packet is added to a fresh frame, or to one that has all of `Property`. -/
theorem EveryFrame.pending {Property : PendingFrame → Prop} (every : EveryFrame Property buffer)
    (filed : ∀ frame, Property frame → Filed frame) (timestamp : BitVec 32) (arrival : SteadyTime) :
    buffer.pending timestamp arrival = { timestamp, firstArrival := arrival } ∨
      Property (buffer.pending timestamp arrival) := by
  rcases buffer.pending_cases timestamp arrival with
    ⟨_, fresh⟩ | ⟨slot, frame, member, _, same⟩
  · exact .inl fresh
  · have holds := every _ member
    rw [same (filed frame holds).nonempty]
    exact .inr holds

theorem filed_run (search : FrameSearch) (config : JitterBufferConfig) (events : List Event) :
    EveryFrame Filed ((machine search config).run events) := by
  apply @Machine.invariant _ _ _ (machine search config) (EveryFrame Filed)
  · intro entry member
    cases member
  · intro buffer event every
    cases event with
    | pop now => exact every.pop now
    | push packet arrival =>
        change EveryFrame Filed (buffer.push packet arrival).1
        rcases push_cases buffer packet arrival with ⟨stats, refused, _⟩ | ⟨stats, accepted, _⟩
        · rw [refused]
          exact every
        · rw [accepted, every.store_iff]
          rcases every.pending (fun _ filed => filed) packet.timestamp arrival with fresh | filed
          · rw [fresh]
            exact (Tracked.insert_fresh _ _ packet).toFiled
          · exact filed.insert packet

/-- The pushed packet is refused as late, is the first of its frame, or keeps
the numbers of its frame on one arc. -/
def TracksArc (buffer : JitterBuffer) : Event → Prop
  | .push packet arrival =>
      buffer.isLate packet.timestamp = true ∨
        (buffer.pending packet.timestamp arrival).seqInit = false ∨
        Extends (buffer.pending packet.timestamp arrival) packet.sequenceNumber
  | .pop _ => True

theorem tracked_step (every : EveryFrame Tracked buffer) {event : Event}
    (tracks : TracksArc buffer event) : EveryFrame Tracked (buffer.step event).1 := by
  cases event with
  | pop now => exact every.pop now
  | push packet arrival =>
      change EveryFrame Tracked (buffer.push packet arrival).1
      rcases push_cases buffer packet arrival with
        ⟨stats, refused, _⟩ | ⟨stats, accepted, inTime, _⟩
      · rw [refused]
        exact every
      · rw [accepted, every.store_iff]
        rcases every.pending (fun _ tracked => tracked.toFiled) packet.timestamp arrival with
          fresh | tracked
        · rw [fresh]
          exact Tracked.insert_fresh _ _ packet
        · rcases tracks with late | notStarted | grows
          · rw [inTime] at late
            cases late
          · rw [tracked.started] at notStarted
            cases notStarted
          · exact tracked.insert grows

theorem TracksArc.of_onArc (every : EveryFrame Tracked buffer) {event : Event}
    (onArc : EveryFrame OnArc (buffer.step event).1) : TracksArc buffer event := by
  cases event with
  | pop now => trivial
  | push packet arrival =>
      change EveryFrame OnArc (buffer.push packet arrival).1 at onArc
      have everyOnArc : EveryFrame OnArc buffer := fun entry member => (every entry member).onArc
      rcases push_cases buffer packet arrival with
        ⟨_, _, late | held⟩ | ⟨stats, accepted, _, _⟩
      · exact .inl late
      · rcases every.pending (fun _ tracked => tracked.toFiled) packet.timestamp arrival with
          fresh | tracked
        · rw [fresh] at held
          cases held
        · exact .inr (.inr (.inl (tracked.onArc _ (tracked.holds_iff.mp held))))
      · rw [accepted, everyOnArc.store_iff] at onArc
        rcases every.pending (fun _ tracked => tracked.toFiled) packet.timestamp arrival with
          fresh | tracked
        · exact .inr (.inl (by rw [fresh]))
        · exact .inr (.inr (extends_of_onArc_insert tracked onArc))

/-- In a run whose pushes all keep the numbers of their frame on one arc, the
counting and the walking view of every pending frame agree in every state, so
that `pop` hands out complete frames only, with every packet they hold. These
are the runs in which the least and the greatest number bound every frame. -/
theorem viewsAgree_of_tracksArc (search : FrameSearch) (config : JitterBufferConfig)
    (video : config.kind = .video)
    (events : List Event) :
    ((machine search config).EveryStep TracksArc events →
      (machine search config).Always (EveryFrame (ViewsAgree config)) events) ∧
    ((machine search config).Always (EveryFrame OnArc) events ↔
      (machine search config).EveryStep TracksArc events) := by
  have initially : EveryFrame Tracked (create search config) := fun _ member => nomatch member
  have always : (machine search config).EveryStep TracksArc events →
      (machine search config).Always (EveryFrame Tracked) events :=
    Machine.always_of_everyStep initially fun _ _ every tracks => tracked_step every tracks
  refine ⟨fun tracks => ?_, fun onArc => ?_, fun tracks => ?_⟩
  · exact (always tracks).mono fun _ every entry member =>
      Tracked.viewsAgree video (every entry member)
  · have strong : (machine search config).Always (EveryFrame Tracked) events :=
      onArc.strengthen initially fun _ _ every after =>
        tracked_step every (TracksArc.of_onArc every after)
    intro past event isPrefix
    have after := onArc _ isPrefix
    rw [Machine.run_snoc] at after
    exact TracksArc.of_onArc
      (strong past ((List.prefix_append past [event]).trans isPrefix)) after
  · exact (always tracks).mono fun _ every entry member => (every entry member).onArc

/-- Two packets in the wrong order, across the wrap. -/
theorem viewsAgree_across_wrap :
    (machine (.linear _) {}).Always (EveryFrame (ViewsAgree {}))
      [.push { sequenceNumber := 0, marker := true } 0, .push { sequenceNumber := 0xFFFF } 0] := by
  apply (viewsAgree_of_tracksArc _ {} rfl _).1
  apply (@Machine.everyStep_snoc _ _ _ (machine (.linear _) {}) TracksArc
    [.push { sequenceNumber := 0, marker := true } 0] _).mpr
  refine ⟨(@Machine.everyStep_snoc _ _ _ (machine (.linear _) {}) TracksArc [] _).mpr
    ⟨Machine.everyStep_nil, ?_⟩, ?_⟩
  · exact .inr (.inl rfl)
  · exact .inr (.inr (.inr (by decide)))

/-- The numbers 0, 0x8000 and 2: the second changes neither end of the arc, and
the count hides that 1 is missing. -/
theorem antipodal_number_counts_as_complete :
    ¬ ∀ (search : FrameSearch) (config : JitterBufferConfig) (events : List Event),
      config.kind = .video →
      EveryFrame (ViewsAgree config) ((machine search config).run events) := by
  intro always
  have agree := always (.linear _) {} [.push {} 0, .push { sequenceNumber := 0x8000 } 0,
    .push { sequenceNumber := 2, marker := true } 0] rfl
  have frame := agree (0, PendingFrame.insert (PendingFrame.insert (PendingFrame.insert {} {})
    { sequenceNumber := 0x8000 }) { sequenceNumber := 2, marker := true })
    (List.mem_singleton.mpr rfl)
  exact absurd ((frame.complete_iff rfl).mp (by decide)).1 (by decide)

end JitterBuffer

end Vela
