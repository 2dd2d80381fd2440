import Vela.Network.TransparentDelivery

/-! # Audio over a lossy channel

An Opus frame is one packet, so that a lost one takes nothing else with it. What
arrives before the first pop is handed out in the order of the timestamps,
whatever was lost and however the rest was reordered and repeated. -/

namespace Vela

open Foundation SerialNumber PendingFrame JitterBuffer RTPHandler

/-! ## One packet a frame -/

def IsOpus (frame : EncodedFrame) : Prop :=
  frame.kind = .audio ∧ frame.audioCodec = .opus ∧ frame.payload ≠ []

/-- The one packet of an Opus frame. -/
structure CarriesOpus (frame : EncodedFrame) (packet : RtpPacket) : Prop where
  timestamp : packet.timestamp = frame.rtpTimestamp
  payload : packet.payload = frame.payload

theorem RTPHandler.packetizeAll_opus (handler : RTPHandler) (frames : List EncodedFrame)
    (opus : ∀ frame ∈ frames, IsOpus frame) :
    ∃ packets : List RtpPacket, handler.packetizeAll frames =
      .ok (packets.map fun packet => [packet]) ∧
      List.Forall₂ CarriesOpus frames packets := by
  induction frames generalizing handler with
  | nil => exact ⟨[], rfl, .nil⟩
  | cons frame rest induction =>
      rcases opus frame List.mem_cons_self with ⟨audio, codec, filled⟩
      rcases induction { handler with seq := handler.seq + 1 }
        (fun other member => opus other (List.mem_cons_of_mem _ member)) with
        ⟨packets, packetized, carry⟩
      refine ⟨{ payloadType := handler.payloadType, ssrc := handler.ssrc,
                timestamp := frame.rtpTimestamp, sequenceNumber := handler.seq, marker := true,
                payload := frame.payload } :: packets, ?_, .cons ⟨rfl, rfl⟩ carry⟩
      rw [packetizeAll, packetize, List.isEmpty_eq_false_iff.mpr filled, audio, codec]
      simp only [Bool.false_eq_true, if_false, ne_eq, not_true_eq_false, packetizeOpus, emit,
        packetized, List.map_cons]
      rfl

namespace JitterBuffer

variable {buffer : JitterBuffer} {base : BitVec 32}

/-! ## Pushes before the first pop -/

/-- The buffer after `deliveries` were pushed, and nothing was popped yet. -/
structure Buffered (base : BitVec 32) (deliveries : List (RtpPacket × SteadyTime))
    (buffer : JitterBuffer) : Prop extends Anchored buffer where
  nothingLeft : buffer.hasEmitted = false
  window : ∀ key ∈ buffer.frames.keys, InHalf base key
  keyed : ∀ delivery ∈ deliveries, delivery.1.timestamp ∈ buffer.frames.keys
  stored : ∀ entry ∈ buffer.frames.entries, ∀ stored ∈ entry.2.packets.entries,
    ∃ arrival, (stored.2, arrival) ∈ deliveries
  arrived : ∀ entry ∈ buffer.frames.entries, ∃ delivery ∈ deliveries,
    delivery.2 = entry.2.firstArrival

/-- The frame holds delivered packets only, and one of them started it. -/
structure Delivered (deliveries : List (RtpPacket × SteadyTime)) (frame : PendingFrame) : Prop where
  stored : ∀ stored ∈ frame.packets.entries, ∃ arrival, (stored.2, arrival) ∈ deliveries
  arrived : ∃ delivery ∈ deliveries, delivery.2 = frame.firstArrival

section Push

variable {deliveries : List (RtpPacket × SteadyTime)} {frame : PendingFrame} {packet : RtpPacket}
  {arrival : SteadyTime}

theorem Delivered.later (delivered : Delivered deliveries frame)
    (newest : RtpPacket × SteadyTime) : Delivered (deliveries ++ [newest]) frame where
  stored := by
    intro stored inside
    rcases delivered.stored stored inside with ⟨when, pushed⟩
    exact ⟨when, List.mem_append_left _ pushed⟩
  arrived := by
    rcases delivered.arrived with ⟨delivery, pushed, same⟩
    exact ⟨delivery, List.mem_append_left _ pushed, same⟩

theorem Delivered.insert (delivered : Delivered (deliveries ++ [(packet, arrival)]) frame) :
    Delivered (deliveries ++ [(packet, arrival)]) (frame.insert packet) where
  stored := by
    intro stored inside
    rw [insert_packets] at inside
    rcases OrderedMap.mem_store_cases inside with old | ⟨_, isNew⟩ | ⟨_, _, _, _, _, _, isNew⟩
    · exact delivered.stored stored old
    · rw [isNew]
      exact ⟨arrival, by simp⟩
    · rw [isNew]
      exact ⟨arrival, by simp⟩
  arrived := by
    rw [insert_firstArrival]
    exact delivered.arrived

theorem Buffered.delivered (buffered : Buffered base deliveries buffer)
    {entry : BitVec 32 × PendingFrame} (member : entry ∈ buffer.frames.entries) :
    Delivered deliveries entry.2 :=
  ⟨buffered.stored entry member, buffered.arrived entry member⟩

/-- The frame that a packet is put into, found or fresh. -/
theorem Buffered.pending (buffered : Buffered base deliveries buffer) (packet : RtpPacket)
    (arrival : SteadyTime) :
    Delivered (deliveries ++ [(packet, arrival)]) (buffer.pending packet.timestamp arrival) := by
  rcases buffer.pending_cases packet.timestamp arrival with
    ⟨_, fresh⟩ | ⟨slot, frame, member, found, same⟩
  · rw [fresh]
    exact ⟨fun _ inside => absurd inside List.not_mem_nil, (packet, arrival), by simp, rfl⟩
  · have delivered := (buffered.delivered member).later (packet, arrival)
    rw [JitterBuffer.pending, found, Option.getD_some]
    refine ⟨?_, ?_⟩
    · rw [anchor_packets]
      exact delivered.stored
    · rw [anchor]
      split
      · exact ⟨(packet, arrival), by simp, rfl⟩
      · exact delivered.arrived

theorem Buffered.fits (buffered : Buffered base deliveries buffer)
    (inWindow : InHalf base packet.timestamp) :
    FitHalf (packet.timestamp :: buffer.frames.keys) := by
  refine ⟨base, fun key member => ?_⟩
  rcases List.mem_cons.mp member with isNew | old
  · rw [isNew]
    exact inWindow
  · exact buffered.window key old

theorem Buffered.push (buffered : Buffered base deliveries buffer)
    (inWindow : InHalf base packet.timestamp) (arrival : SteadyTime) :
    Buffered base (deliveries ++ [(packet, arrival)]) (buffer.push packet arrival).1 := by
  have fits := buffered.fits inWindow
  have anchored : Anchored (buffer.push packet arrival).1 :=
    @Anchored.step buffer buffered.toAnchored (.push packet arrival) (.inr (.inr fits))
  have ordered := (tsOrder_iff_fitHalf _).mpr fits
  rcases push_cases buffer packet arrival with ⟨stats, refused, reason⟩ | ⟨stats, accepted, _, new⟩
  · have held := reason.resolve_left (by simp [isLate, buffered.nothingLeft])
    have isEntry := (OrderedMap.find?_eq_some_iff buffered.sorted ordered).mp (find?_of_holds held)
    rw [refused] at anchored ⊢
    refine ⟨anchored, buffered.nothingLeft, buffered.window, ?_, ?_, ?_⟩
    · intro delivery member
      rcases List.mem_append.mp member with old | isNew
      · exact buffered.keyed delivery old
      · rw [List.mem_singleton.mp isNew]
        exact OrderedMap.mem_keys.mpr ⟨_, isEntry⟩
    · exact fun entry member => ((buffered.delivered member).later _).stored
    · exact fun entry member => ((buffered.delivered member).later _).arrived
  · have newKeys := @OrderedMap.mem_keys_store _ _ _ _ _ buffered.sorted ordered
      ((buffer.pending packet.timestamp arrival).insert packet)
    rw [accepted] at anchored ⊢
    have delivered : ∀ entry ∈ (buffer.frames.store packet.timestamp
        ((buffer.pending packet.timestamp arrival).insert packet)).entries,
          Delivered (deliveries ++ [(packet, arrival)]) entry.2 := by
      intro entry member
      rcases (OrderedMap.mem_store_iff buffered.sorted ordered).mp member with isNew | ⟨_, old⟩
      · rw [isNew]
        exact (buffered.pending packet arrival).insert
      · exact (buffered.delivered old).later _
    refine ⟨anchored, buffered.nothingLeft, ?_, ?_, fun entry member =>
      (delivered entry member).stored, fun entry member => (delivered entry member).arrived⟩
    · intro key member
      rcases newKeys.mp member with isNew | old
      · rw [isNew]
        exact inWindow
      · exact buffered.window key old
    · intro delivery member
      apply newKeys.mpr
      rcases List.mem_append.mp member with old | isNew
      · exact .inr (buffered.keyed delivery old)
      · rw [List.mem_singleton.mp isNew]
        exact .inl rfl

end Push

/-- What arrives, as a run. -/
def arrivals (deliveries : List (RtpPacket × SteadyTime)) : List Event :=
  deliveries.map fun delivery => .push delivery.1 delivery.2

theorem buffered_run (search : FrameSearch) (config : JitterBufferConfig)
    {deliveries : List (RtpPacket × SteadyTime)}
    (inWindow : ∀ delivery ∈ deliveries, InHalf base delivery.1.timestamp) :
    Buffered base deliveries ((machine search config).run (arrivals deliveries)) := by
  induction deliveries using List.reverseRecOn with
  | nil =>
      refine ⟨Anchored.create search config, rfl, ?_, ?_, ?_, ?_⟩ <;>
        intro _ member <;> cases member
  | append_singleton past delivery induction =>
      have before :=
        induction fun earlier member => inWindow earlier (List.mem_append_left _ member)
      rw [arrivals, List.map_append, List.map_singleton, Machine.run_snoc]
      exact before.push (inWindow delivery (by simp)) delivery.2

/-! ## Pops of frames that are all playable -/

/-- A pop that finds every pending frame due and playable hands out the oldest. -/
theorem pop_oldest {now : SteadyTime} {results : List EncodedFrame}
    (due : ∀ entry ∈ buffer.frames.entries, delayElapsed buffer.config now entry.2 = true)
    (plays : buffer.frames.entries.map (fun entry => playable buffer.config entry.2) =
      results.map some) :
    (buffer.pop now).2 = results.head? ∧
      (buffer.pop now).1.frames.entries = buffer.frames.entries.tail := by
  cases split : buffer.frames.entries with
  | nil =>
      rw [split, List.map_nil, eq_comm, List.map_eq_nil_iff] at plays
      rw [JitterBuffer.pop, split, plays]
      exact ⟨rfl, split⟩
  | cons entry rest =>
      rcases entry with ⟨key, frame⟩
      rw [split] at due plays
      cases results with
      | nil => cases plays
      | cons result others =>
          have isResult : playable buffer.config frame = some result := (List.cons.inj plays).1
          have elapsed := due (key, frame) List.mem_cons_self
          rw [JitterBuffer.pop, split, popLoop_cons, if_pos elapsed, isResult]
          exact ⟨rfl, rfl⟩

/-- Such pops hand the pending frames out one by one, and then nothing. -/
theorem pops_oldest {search : FrameSearch} {config : JitterBufferConfig} {past : List Event}
    {results : List EncodedFrame}
    (plays : ((machine search config).run past).frames.entries.map
      (fun entry => playable config entry.2) = results.map some)
    (pops : List SteadyTime)
    (due : ∀ now ∈ pops, ∀ entry ∈ ((machine search config).run past).frames.entries,
      delayElapsed config now entry.2 = true) :
    ((machine search config).run (past ++ pops.map .pop)).frames.entries =
        ((machine search config).run past).frames.entries.drop pops.length ∧
      ∀ earlier now, earlier ++ [now] <+: pops →
        (((machine search config).run (past ++ earlier.map .pop)).pop now).2 =
          results[earlier.length]? := by
  have next : ∀ (earlier : List SteadyTime) (now : SteadyTime),
      (∀ entry ∈ ((machine search config).run past).frames.entries,
        delayElapsed config now entry.2 = true) →
      ((machine search config).run (past ++ earlier.map .pop)).frames.entries =
        ((machine search config).run past).frames.entries.drop earlier.length →
      (((machine search config).run (past ++ earlier.map .pop)).pop now).2 =
          results[earlier.length]? ∧
        (((machine search config).run (past ++ earlier.map .pop)).pop now).1.frames.entries =
          ((machine search config).run past).frames.entries.drop (earlier.length + 1) := by
    intro earlier now dueNow left
    have popped := @pop_oldest ((machine search config).run (past ++ earlier.map .pop)) now
      (results.drop earlier.length) (by
        intro entry member
        rw [left] at member
        rw [run_config]
        exact dueNow entry (List.mem_of_mem_drop member)) (by
        rw [left, run_config, List.map_drop, plays, List.map_drop])
    rw [List.head?_drop, left, List.tail_drop] at popped
    exact popped
  induction pops using List.reverseRecOn with
  | nil =>
      refine ⟨by simp, ?_⟩
      intro earlier now isPrefix
      simp at isPrefix
  | append_singleton pops last induction =>
      rcases induction fun now member => due now (List.mem_append_left _ member) with
        ⟨left, returns⟩
      have popped := next pops last (due last (by simp)) left
      refine ⟨?_, ?_⟩
      · rw [List.map_append, List.map_singleton, ← List.append_assoc, Machine.run_snoc,
          List.length_append, List.length_singleton]
        exact popped.2
      · intro earlier now isPrefix
        rcases List.prefix_concat_iff.mp isPrefix with same | shorter
        · rcases List.append_inj' same rfl with ⟨sameEarlier, sameNow⟩
          cases sameNow
          rw [sameEarlier]
          exact popped.1
        · exact returns earlier now shorter

/-! ## Frames of one packet -/

/-- What an Opus packet is handed out as. -/
def playedOut (config : JitterBufferConfig) (timestamp : BitVec 32) (payload : Bytes) :
    EncodedFrame where
  kind := .audio
  audioCodec := config.audioCodec
  rtpTimestamp := timestamp
  payload := payload

theorem playable_single {config : JitterBufferConfig} {frame : PendingFrame} {packet : RtpPacket}
    (audio : config.kind = .audio) (filed : Filed frame)
    (only : ∀ stored ∈ frame.packets.entries, stored.2 = packet) :
    playable config frame = some (playedOut config packet.timestamp packet.payload) := by
  have heldAs : ∀ seq ∈ frame.packets.keys, (seq, packet) ∈ frame.packets.entries ∧
      seq = packet.sequenceNumber := by
    intro seq isKey
    rcases OrderedMap.mem_keys.mp isKey with ⟨stored, member⟩
    have isPacket : stored = packet := only _ member
    have ownNumber : stored.sequenceNumber = seq := filed.numbered _ member
    rw [isPacket] at member ownNumber
    exact ⟨member, ownNumber.symm⟩
  have first := heldAs _ filed.minHeld
  have last := heldAs _ filed.maxHeld
  have found := filed.find?_iff.mpr first.1
  have ordered : frame.ordered = [packet] := by
    rw [PendingFrame.ordered, PendingFrame.arc, last.2, ← first.2, SerialNumber.arc, forward_self,
      arcFrom, List.filterMap_cons_some found]
    rfl
  have filled := List.isEmpty_eq_false_iff.mpr filed.nonempty
  rw [playable, isComplete, audio, assemble, ordered, audio, filled]
  rfl

end JitterBuffer

section Heard

variable {search : FrameSearch} {config : JitterBufferConfig} {frames : List EncodedFrame}
  {packets : List RtpPacket}
  {deliveries : List (RtpPacket × SteadyTime)}

/-- The frames of which the packet was delivered, in the order they were sent. -/
def heard (frames : List EncodedFrame) (sent : List (List RtpPacket))
    (deliveries : List (RtpPacket × SteadyTime)) : List EncodedFrame :=
  ((frames.zip sent).filter fun entry =>
    entry.2.any fun packet => deliveries.any fun delivery => delivery.1 == packet).map Prod.fst

/-- The packets that were delivered, in the order they were sent. -/
def deliveredOf (packets : List RtpPacket) (deliveries : List (RtpPacket × SteadyTime)) :
    List RtpPacket :=
  packets.filter fun packet => deliveries.any fun delivery => delivery.1 == packet

theorem mem_deliveredOf {packet : RtpPacket} :
    packet ∈ deliveredOf packets deliveries ↔
      packet ∈ packets ∧ ∃ arrival, (packet, arrival) ∈ deliveries := by
  simp [deliveredOf]

theorem heard_played (config : JitterBufferConfig)
    (carry : List.Forall₂ CarriesOpus frames packets) :
    (heard frames (packets.map fun packet => [packet]) deliveries).map
        (fun frame => playedOut config frame.rtpTimestamp frame.payload) =
      (deliveredOf packets deliveries).map
        fun packet => playedOut config packet.timestamp packet.payload := by
  induction carry with
  | nil => rfl
  | cons carries _ induction =>
      simp only [heard, deliveredOf, List.map_cons, List.zip_cons_cons, List.filter_cons,
        List.any_cons, List.any_nil, Bool.or_false] at induction ⊢
      split
      · rw [List.map_cons, List.map_cons, List.map_cons, induction, carries.timestamp,
          carries.payload]
      · exact induction

/-- After the deliveries, the pending frames are the delivered packets in order. -/
theorem JitterBuffer.Buffered.keys_eq {base : BitVec 32} {buffer : JitterBuffer}
    (buffered : Buffered base deliveries buffer) (filed : EveryFrame Filed buffer)
    (inOrder : (packets.map RtpPacket.timestamp).Pairwise fun earlier later =>
      tsLessThan earlier later = true)
    (onlySent : ∀ delivery ∈ deliveries, delivery.1 ∈ packets) :
    buffer.frames.keys = (deliveredOf packets deliveries).map RtpPacket.timestamp := by
  have isKey : ∀ key, key ∈ buffer.frames.keys ↔
      key ∈ (deliveredOf packets deliveries).map RtpPacket.timestamp := by
    intro key
    constructor
    · intro member
      rcases OrderedMap.mem_keys.mp member with ⟨frame, isEntry⟩
      rcases List.exists_mem_of_ne_nil _ (filed _ isEntry).nonempty with ⟨stored, inside⟩
      rcases buffered.stored _ isEntry stored inside with ⟨arrival, pushed⟩
      refine List.mem_map.mpr ⟨stored.2, mem_deliveredOf.mpr ⟨onlySent _ pushed, arrival, pushed⟩,
        ?_⟩
      exact buffered.ownKey _ isEntry stored inside
    · intro member
      rcases List.mem_map.mp member with ⟨packet, delivered, rfl⟩
      rcases (mem_deliveredOf.mp delivered).2 with ⟨arrival, pushed⟩
      exact buffered.keyed _ pushed
  have sorted : buffer.frames.keys.Pairwise fun earlier later =>
      tsLessThan earlier later = true := List.pairwise_map.mpr buffered.sorted
  have listed : ((deliveredOf packets deliveries).map RtpPacket.timestamp).Pairwise
      fun earlier later => tsLessThan earlier later = true :=
    inOrder.sublist (List.filter_sublist.map _)
  have different : ∀ {earlier later : BitVec 32}, tsLessThan earlier later = true →
      earlier ≠ later := by
    intro earlier later before
    rw [tsLessThan_eq_precedes, precedes_iff] at before
    exact forward_pos.mp before.1
  apply List.Perm.eq_of_pairwise _ sorted listed
  · exact (List.perm_ext_iff_of_nodup (sorted.imp different) (listed.imp different)).mpr isKey
  · intro earlier later _ _ before after
    rw [tsLessThan_eq_precedes] at before after
    rw [precedes_asymm (by decide) before] at after
    cases after

/-- Each pending frame holds the one packet of its timestamp. -/
theorem JitterBuffer.Buffered.plays {base : BitVec 32} {buffer : JitterBuffer}
    (buffered : Buffered base deliveries buffer) (filed : EveryFrame Filed buffer)
    (audio : config.kind = .audio)
    (inOrder : (packets.map RtpPacket.timestamp).Pairwise fun earlier later =>
      tsLessThan earlier later = true)
    (onlySent : ∀ delivery ∈ deliveries, delivery.1 ∈ packets) :
    buffer.frames.entries.map (fun entry => playable config entry.2) =
      ((deliveredOf packets deliveries).map fun packet =>
        playedOut config packet.timestamp packet.payload).map some := by
  have keys := buffered.keys_eq filed inOrder onlySent
  have distinct : (packets.map RtpPacket.timestamp).Nodup := by
    apply inOrder.imp
    intro earlier later before
    rw [tsLessThan_eq_precedes, precedes_iff] at before
    exact forward_pos.mp before.1
  have single : ∀ entry ∈ buffer.frames.entries, ∀ packet ∈ packets, packet.timestamp = entry.1 →
      playable config entry.2 = some (playedOut config packet.timestamp packet.payload) := by
    intro entry member packet isSent stamp
    apply playable_single audio (filed entry member)
    intro stored inside
    rcases buffered.stored entry member stored inside with ⟨arrival, pushed⟩
    apply List.inj_on_of_nodup_map distinct (onlySent _ pushed) isSent
    rw [buffered.ownKey entry member stored inside, stamp]
  have sameLength : buffer.frames.entries.length = (deliveredOf packets deliveries).length := by
    have lengths := congrArg List.length keys
    rw [OrderedMap.keys, List.length_map, List.length_map] at lengths
    exact lengths
  apply List.ext_getElem
  · rw [List.length_map, List.length_map, List.length_map, sameLength]
  · intro index within within'
    rw [List.length_map] at within
    rw [List.getElem_map, List.getElem_map, List.getElem_map]
    have stamps := List.getElem_of_eq keys (by rw [OrderedMap.keys, List.length_map]; exact within)
    simp only [OrderedMap.keys, List.getElem_map] at stamps
    apply single _ (List.getElem_mem _) _ _ stamps.symm
    exact (mem_deliveredOf.mp (List.getElem_mem _)).1

end Heard

/-- Timestamps that each come after the one before, within one half circle, come
in order altogether. -/
theorem pairwise_of_chain {timestamps : List (BitVec 32)} (window : FitHalf timestamps)
    (chain : timestamps.IsChain fun earlier later => tsLessThan earlier later = true) :
    timestamps.Pairwise fun earlier later => tsLessThan earlier later = true := by
  rcases window with ⟨base, inside⟩
  have transitive : Trans
      (fun earlier later : BitVec 32 => forward base earlier < forward base later)
      (fun earlier later : BitVec 32 => forward base earlier < forward base later)
      (fun earlier later : BitVec 32 => forward base earlier < forward base later) :=
    ⟨fun before after => Nat.lt_trans before after⟩
  have distances : timestamps.IsChain fun earlier later =>
      forward base earlier < forward base later := by
    apply chain.imp_of_mem_imp
    intro earlier later earlierMem laterMem before
    rw [tsLessThan_eq_precedes] at before
    exact (precedes_iff_of_inHalf (by decide) (inside _ earlierMem) (inside _ laterMem)).mp before
  apply distances.pairwise.imp_of_mem
  intro earlier later earlierMem laterMem before
  rw [tsLessThan_eq_precedes]
  exact (precedes_iff_of_inHalf (by decide) (inside _ earlierMem) (inside _ laterMem)).mpr before

/-- Opus frames that one handler packetizes, of which any packets arrive, in any
order and any number of times, before the first pop: pops after the delay of the
last arrival hand out exactly the frames that arrived, in order and once each,
and then nothing. -/
theorem audio_survives_loss {handler : RTPHandler} {frames : List EncodedFrame}
    {sent : List (List RtpPacket)} (opus : ∀ frame ∈ frames, IsOpus frame)
    (newer : (frames.map EncodedFrame.rtpTimestamp).IsChain fun earlier later =>
      tsLessThan earlier later = true)
    (window : FitHalf (frames.map EncodedFrame.rtpTimestamp))
    (packetized : handler.packetizeAll frames = .ok sent)
    (search : FrameSearch) (config : JitterBufferConfig) (audio : config.kind = .audio)
    (deliveries : List (RtpPacket × SteadyTime))
    (onlySent : ∀ delivery ∈ deliveries, delivery.1 ∈ sent.flatten)
    (pops : List SteadyTime)
    (due : ∀ now ∈ pops, ∀ delivery ∈ deliveries, delivery.2 + config.targetDelay ≤ now) :
    ∀ earlier now, earlier ++ [now] <+: pops →
      (((machine search config).run (arrivals deliveries ++ earlier.map .pop)).pop now).2 =
        (heard frames sent deliveries)[earlier.length]?.map fun frame =>
          playedOut config frame.rtpTimestamp frame.payload := by
  rcases handler.packetizeAll_opus frames opus with ⟨packets, arePackets, carry⟩
  rw [packetized] at arePackets
  cases arePackets
  have stamps : packets.map RtpPacket.timestamp = frames.map EncodedFrame.rtpTimestamp := by
    have each : List.Forall₂ (fun frame packet => EncodedFrame.rtpTimestamp frame =
        RtpPacket.timestamp packet) frames packets :=
      carry.imp fun _ _ carries => carries.timestamp.symm
    rw [← List.forall₂_eq_eq_eq, List.forall₂_map_left_iff, List.forall₂_map_right_iff]
    exact each.flip.imp fun _ _ same => same.symm
  have inOrder := pairwise_of_chain window newer
  rw [← stamps] at inOrder window
  have isSent : ∀ delivery ∈ deliveries, delivery.1 ∈ packets := by
    intro delivery member
    have listed := onlySent delivery member
    rw [← List.flatMap_def, List.flatMap_singleton' packets] at listed
    exact listed
  rcases window with ⟨base, inside⟩
  have buffered := @buffered_run base search config deliveries fun delivery member =>
    inside _ (List.mem_map_of_mem (isSent delivery member))
  have plays := @Buffered.plays config packets deliveries base _ buffered
    (filed_run search config _) audio inOrder isSent
  intro earlier now isPrefix
  have returns := (pops_oldest plays pops (by
    intro instant isPop entry member
    rcases buffered.arrived entry member with ⟨delivery, pushed, first⟩
    rw [delayElapsed_iff, ← first]
    exact due instant isPop delivery pushed)).2 earlier now isPrefix
  rw [returns, ← heard_played config carry, List.getElem?_map]

/-- Three frames across both wraps, of which the second is lost, and the third
arrives first and twice. -/
theorem audio_survives_loss_across_wrap :
    let frameAt (timestamp : BitVec 32) (payload : Bytes) : EncodedFrame :=
      { kind := .audio, audioCodec := .opus, rtpTimestamp := timestamp, payload }
    let packetAt (sequenceNumber : BitVec 16) (timestamp : BitVec 32) (payload : Bytes) :
        RtpPacket :=
      { payloadType := 111, ssrc := 2, sequenceNumber, timestamp, marker := true, payload }
    (((machine (.linear _) { kind := .audio }).run (arrivals [(packetAt 0 896 [3], 5),
        (packetAt 65534 4294966272 [1], 7), (packetAt 0 896 [3], 9)] ++ [.pop 50000009])).pop
        50000009).2 =
      some (frameAt 896 [3]) := by
  intro frameAt packetAt
  have window : FitHalf [4294966272, 4294967232, (896 : BitVec 32)] := by
    refine ⟨4294966272, ?_⟩
    intro timestamp member
    simp only [List.mem_cons, List.not_mem_nil, or_false] at member
    rcases member with rfl | rfl | rfl <;> decide
  have hands := @audio_survives_loss { RTPHandler.create 111 2 with seq := 65534 }
    [frameAt 4294966272 [1], frameAt 4294967232 [2], frameAt 896 [3]]
    [[packetAt 65534 4294966272 [1]], [packetAt 65535 4294967232 [2]], [packetAt 0 896 [3]]]
    (by
      intro frame member
      simp only [List.mem_cons, List.not_mem_nil, or_false] at member
      rcases member with rfl | rfl | rfl <;> exact ⟨rfl, rfl, by decide⟩)
    (by decide) window rfl (.linear _) { kind := .audio } rfl
    [(packetAt 0 896 [3], 5), (packetAt 65534 4294966272 [1], 7), (packetAt 0 896 [3], 9)]
    (by decide) [50000009, 50000009] (by decide) [50000009] 50000009 (List.prefix_refl _)
  exact hands

end Vela
