import Vela.Media.StreamIsolation
import Vela.Network.Hops
import Vela.Network.TransparentDelivery

/-! # A sender's video at a receiver

The access units that one participant packetizes are shown by another one's
receive router in the order they were sent, whatever else arrives there: the
packets cross any number of hops that parse and serialize them again, the router
serves the stream as if it were alone, and the jitter buffer is transparent. -/

namespace Vela

open Foundation RTPHandler RtpPacket

namespace LoneReceiver

variable {codecs : Codecs}

/-! ## What is seen of a video stream -/

def Event.taken? : Event → Option (RtpPacket × SteadyTime)
  | .packet received arrival => some (received, arrival)
  | .tick _ => none

/-- The packets of a stream so far, with their arrivals. -/
def taken (events : List Event) : List (RtpPacket × SteadyTime) := events.filterMap Event.taken?

def decoderAfter (decoder : codecs.VideoDecoder) (frames : List EncodedFrame) :
    codecs.VideoDecoder :=
  frames.foldl (fun decoder frame => (codecs.decodeVideo decoder frame).1) decoder

/-- The pictures that a decoder makes of frames, one after another. -/
def pictures : codecs.VideoDecoder → List EncodedFrame → List codecs.VideoFrame
  | _, [] => []
  | decoder, frame :: rest =>
      (match (codecs.decodeVideo decoder frame).2 with
        | .ok picture => [picture]
        | .error _ => []) ++ pictures (codecs.decodeVideo decoder frame).1 rest

/-- What is heard of a video stream that hands `frames` to its decoder. -/
def showing (codecs : Codecs) (frames : List EncodedFrame) : List (Heard codecs) :=
  (if frames.isEmpty then [] else [.streamAdded]) ++ (pictures codecs.openVideo frames).map .picture

theorem pictures_append (decoder : codecs.VideoDecoder) (frames later : List EncodedFrame) :
    pictures decoder (frames ++ later) =
      pictures decoder frames ++ pictures (decoderAfter decoder frames) later := by
  induction frames generalizing decoder with
  | nil => rfl
  | cons frame rest induction =>
      rw [List.cons_append, pictures, induction, pictures, List.append_assoc]
      rfl

theorem showing_append (codecs : Codecs) (frames later : List EncodedFrame) :
    showing codecs (frames ++ later) =
      showing codecs frames ++
        ((if frames.isEmpty && !later.isEmpty then [.streamAdded] else []) ++
          (pictures (decoderAfter codecs.openVideo frames) later).map .picture) := by
  rw [showing, pictures_append]
  cases frames with
  | nil => cases later <;> simp [showing, pictures]
  | cons frame rest => simp [showing]

theorem decodeAll_video {receiver : LoneReceiver codecs} {decoder : codecs.VideoDecoder}
    {announced : Bool} (video : receiver.decoder = .video decoder announced)
    (frames : List EncodedFrame) :
    receiver.decodeAll frames =
      ({ receiver with decoder := .video (decoderAfter decoder frames) announced },
        (pictures decoder frames).map .picture) := by
  induction frames generalizing receiver decoder with
  | nil =>
      rw [decodeAll, pictures, decoderAfter, List.foldl_nil, ← video]
      rfl
  | cons frame rest induction =>
      have decoded : receiver.decode frame =
          ({ receiver with
              decoder := .video (codecs.decodeVideo decoder frame).1 announced },
            (match (codecs.decodeVideo decoder frame).2 with
              | .ok picture => [picture]
              | .error _ => []).map .picture) := by
        rw [decode, video]
        dsimp only
        cases (codecs.decodeVideo decoder frame).2 <;> rfl
      rw [decodeAll, decoded, induction rfl, pictures, List.map_append]
      rfl

/-- A tick of a video stream that is not idle. -/
theorem tick_video {config : ReceiveRouter.Config} {now : SteadyTime}
    {receiver : LoneReceiver codecs} {decoder : codecs.VideoDecoder} {announced : Bool}
    (video : receiver.decoder = .video decoder announced)
    (awake : now - receiver.lastPacket ≤ config.streamTimeout) :
    receiver.tick config now =
      (some
        { jitter := (receiver.jitter.popAll now).1
          decoder := .video (decoderAfter decoder (receiver.jitter.popAll now).2)
            (announced || !(receiver.jitter.popAll now).2.isEmpty)
          lastPacket := receiver.lastPacket },
        (if !announced && !(receiver.jitter.popAll now).2.isEmpty then [.streamAdded] else []) ++
          (pictures decoder (receiver.jitter.popAll now).2).map .picture) := by
  rcases receiver with ⟨jitter, _, lastPacket⟩
  cases video
  rw [tick, if_neg (not_lt.mpr awake)]
  dsimp only
  generalize jitter.popAll now = outcome
  rcases outcome with ⟨after, frames⟩
  cases frames with
  | nil => simp [decoderAfter, pictures]
  | cons frame rest =>
      cases announced with
      | true =>
          have decoded := decodeAll_video
            (rfl : (⟨after, .video decoder true, lastPacket⟩ : LoneReceiver codecs).decoder = _)
            (frame :: rest)
          simp [announce, decoded]
      | false =>
          have decoded := decodeAll_video
            (rfl : (⟨after, .video decoder true, lastPacket⟩ : LoneReceiver codecs).decoder = _)
            (frame :: rest)
          simp [announce, decoded]

end LoneReceiver

/-! ## Popping until nothing is ready -/

namespace OrderedStream

open JitterBuffer

variable {maxPayload : Nat} {stream : OrderedStream maxPayload} {search : FrameSearch}
  {config : JitterBufferConfig} {events : List JitterBuffer.Event} {count : Nat} {now : SteadyTime}

theorem inTime_congr {past other : List JitterBuffer.Event} {targetDelay : SteadyTime}
    (same : pushes other = pushes past) (inTime : InTime stream targetDelay past now) :
    InTime stream targetDelay other now := by
  intro index position unit later le isUnit isLater arrived packet packetMem
  rw [WasPushed, same]
  rw [same] at arrived
  exact inTime index position unit later le isUnit isLater arrived packet packetMem

/-- What comes out is the units that follow. -/
theorem Delivered.popReady (delivered : Delivered stream search config events count)
    (video : config.kind = .video) (inTime : InTime stream config.targetDelay events now)
    (steps : Nat) :
    ∃ later total, (((machine search config).run events).popReady now steps).1 =
        (machine search config).run later ∧
      returned search config later =
        returned search config events ++
          (((machine search config).run events).popReady now steps).2 ∧
      pushes later = pushes events ∧ Delivered stream search config later total ∧
        count ≤ total := by
  induction steps generalizing events count with
  | zero => exact ⟨events, count, rfl, (List.append_nil _).symm, rfl, delivered, Nat.le_refl _⟩
  | succ steps induction =>
      have after : (machine search config).run (events ++ [.pop now]) =
          (((machine search config).run events).pop now).1 := by
        rw [Machine.run_snoc]
        rfl
      have handed := returned_pop search config events now
      have next : ∃ more, Delivered stream search config (events ++ [.pop now]) more ∧
        count ≤ more := by
        rcases delivered.pop video inTime with ⟨_, _, same⟩ | ⟨_, more⟩
        · exact ⟨count, same, Nat.le_refl _⟩
        · exact ⟨count + 1, more, Nat.le_succ _⟩
      rcases next with ⟨more, next, atLeast⟩
      rw [JitterBuffer.popReady]
      rcases popped : ((machine search config).run events).pop now with ⟨buffer, outcome⟩
      rw [popped] at after handed
      cases outcome with
      | none =>
          refine ⟨_, more, after.symm, handed, pushes_pop events now, next, atLeast⟩
      | some frame =>
          have stillInTime := inTime_congr (pushes_pop events now) inTime
          rcases induction next stillInTime with ⟨later, total, run, frames, same, last, grows⟩
          rw [after] at run frames
          refine ⟨later, total, run, ?_, same.trans (pushes_pop events now), last,
            Nat.le_trans atLeast grows⟩
          rw [frames, handed, List.append_assoc]
          rfl

/-- What the first units become at the receiver. -/
def frames (stream : OrderedStream maxPayload) (count : Nat) : List EncodedFrame :=
  (stream.units.take count).map fun unit => videoFrame .h264 unit.timestamp unit.nals

end OrderedStream

/-! ## Runs of the lone receiver -/

namespace LoneReceiver

open JitterBuffer (pushes WasPushed)

/-- The packets of a stream as pushes, without its ticks. -/
def arrivals (events : List Event) : List JitterBuffer.Event :=
  (taken events).map fun (packet, arrival) => .push packet arrival

def lastArrival (events : List Event) : Option SteadyTime := (taken events).getLast?.map Prod.snd

theorem pushes_arrivals (events : List Event) : pushes (arrivals events) = taken events := by
  rw [pushes, arrivals, List.filterMap_map]
  exact List.filterMap_some

theorem taken_packet (events : List Event) (packet : RtpPacket) (arrival : SteadyTime) :
    taken (events ++ [.packet packet arrival]) = taken events ++ [(packet, arrival)] := by
  simp [taken, Event.taken?]

theorem taken_tick (events : List Event) (now : SteadyTime) :
    taken (events ++ [.tick now]) = taken events := by
  simp [taken, Event.taken?]

def videoConfig (config : ReceiveRouter.Config) : JitterBufferConfig where
  targetDelay := config.targetDelay
  kind := .video

variable {codecs : Codecs} {maxPayload : Nat}

/-- The receiver of a stream of which the first `count` units have come out. -/
structure Plays (stream : OrderedStream maxPayload) (config : ReceiveRouter.Config)
    (events : List Event) (count : Nat) (past : List JitterBuffer.Event)
    (receiver : LoneReceiver codecs) : Prop where
  jitter : receiver.jitter = (JitterBuffer.machine codecs.frameSearch (videoConfig config)).run past
  pushed : pushes past = taken events
  delivered : OrderedStream.Delivered stream codecs.frameSearch (videoConfig config) past count
  decoder : receiver.decoder =
    .video (decoderAfter codecs.openVideo (stream.frames count)) (!(stream.frames count).isEmpty)
  last : lastArrival events = some receiver.lastPacket

/-- What the channel owes a receiver: packets of the stream alone, each in time for
the tick that is to play it out, and none of them long after the last. -/
structure Carries (stream : OrderedStream maxPayload) (config : ReceiveRouter.Config)
    (events : List Event) : Prop where
  sent : ∀ packet arrival, .packet packet arrival ∈ events →
    ∃ unit ∈ stream.units, packet ∈ unit.packets
  video : ∀ packet arrival, .packet packet arrival ∈ events →
    packet.payloadType ≠ config.audioPayloadType
  inTime : ∀ past now, past ++ [.tick now] <+: events →
    OrderedStream.InTime stream config.targetDelay (arrivals past) now
  awake : ∀ past now, past ++ [.tick now] <+: events →
    ∀ arrival ∈ lastArrival past, now - arrival ≤ config.streamTimeout

theorem Carries.before {stream : OrderedStream maxPayload} {config : ReceiveRouter.Config}
    {past : List Event} {event : Event} (carries : Carries stream config (past ++ [event])) :
    Carries stream config past where
  sent := fun packet arrival member => carries.sent packet arrival (List.mem_append_left _ member)
  video := fun packet arrival member => carries.video packet arrival (List.mem_append_left _ member)
  inTime := fun earlier now isPrefix =>
    carries.inTime earlier now (isPrefix.trans (List.prefix_append _ _))
  awake := fun earlier now isPrefix =>
    carries.awake earlier now (isPrefix.trans (List.prefix_append _ _))

section Run

variable {stream : OrderedStream maxPayload} {config : ReceiveRouter.Config}
  {callbacks : ReceiveRouter.Callbacks} {playback : Bool} {events : List Event} {count : Nat}

theorem Plays.take {past : List JitterBuffer.Event} {receiver : LoneReceiver codecs}
    (plays : Plays stream config events count past receiver) {packet : RtpPacket}
    {unit : SentUnit maxPayload} (unitMem : unit ∈ stream.units) (packetMem : packet ∈ unit.packets)
    (arrival : SteadyTime) :
    Plays stream config (events ++ [.packet packet arrival]) count (past ++ [.push packet arrival])
      (receiver.take packet arrival) where
  jitter := by
    rw [Machine.run_snoc, ← plays.jitter]
    rfl
  pushed := by rw [JitterBuffer.pushes_push, taken_packet, plays.pushed]
  delivered := plays.delivered.push unitMem packetMem arrival
  decoder := plays.decoder
  last := by
    rw [lastArrival, taken_packet, List.getLast?_concat]
    rfl

/-- A stream that begins. -/
theorem plays_openFor {packet : RtpPacket} {unit : SentUnit maxPayload}
    (video : packet.payloadType ≠ config.audioPayloadType) (nothing : taken events = [])
    (unitMem : unit ∈ stream.units) (packetMem : packet ∈ unit.packets) (arrival : SteadyTime) :
    Plays stream config (events ++ [.packet packet arrival]) 0 [.push packet arrival]
      ((openFor config packet : LoneReceiver codecs).take packet arrival) where
  jitter := by
    rw [openFor, if_neg video]
    rfl
  pushed := by
    rw [taken_packet, nothing]
    rfl
  delivered := OrderedStream.Delivered.push ⟨.create _ _, rfl⟩ unitMem packetMem arrival
  decoder := by
    rw [openFor, if_neg video]
    rfl
  last := by
    rw [lastArrival, taken_packet, List.getLast?_concat]
    rfl

/-- Everything has been taken, and it is all due. -/
def AllDue (stream : OrderedStream maxPayload) (config : ReceiveRouter.Config) (past : List Event)
    (now : SteadyTime) : Prop :=
  (∀ unit ∈ stream.units, ∀ packet ∈ unit.packets, WasPushed (arrivals past) packet) ∧
    ∀ packet arrival, (packet, arrival) ∈ taken past → arrival + config.targetDelay ≤ now

/-- A tick shows the units that follow; all of them if they are all due. -/
theorem Plays.tick {past : List JitterBuffer.Event} {receiver : LoneReceiver codecs}
    {now : SteadyTime} (plays : Plays stream config events count past receiver)
    (inTime : OrderedStream.InTime stream config.targetDelay (arrivals events) now)
    (awake : ∀ arrival ∈ lastArrival events, now - arrival ≤ config.streamTimeout) :
    ∃ after heard total later, receiver.tick config now = (some after, heard) ∧
      Plays stream config (events ++ [.tick now]) total later after ∧
      showing codecs (stream.frames total) = showing codecs (stream.frames count) ++ heard ∧
      count ≤ total ∧ (AllDue stream config events now → total = stream.units.length) := by
  have samePushes : pushes past = pushes (arrivals events) := by
    rw [pushes_arrivals, plays.pushed]
  have ticked : receiver.tick config now = _ := tick_video plays.decoder (awake _ plays.last)
  have popped := plays.delivered.popReady rfl (OrderedStream.inTime_congr samePushes inTime)
    (receiver.jitter.frameCount + 1)
  rw [← plays.jitter] at popped
  rcases popped with ⟨later, total, run, frames, pushed, delivered, grows⟩
  have follow : stream.frames total = stream.frames count ++ (receiver.jitter.popAll now).2 := by
    rw [delivered.2, plays.delivered.2] at frames
    exact frames
  rw [ticked]
  refine ⟨_, _, total, later, rfl, ⟨run, ?_, delivered, ?_, ?_⟩, ?_, grows, ?_⟩
  · rw [pushed, plays.pushed, taken_tick]
  · have shown : (!(stream.frames total).isEmpty) =
        (!(stream.frames count).isEmpty || !(receiver.jitter.popAll now).2.isEmpty) := by
      rw [follow]
      cases stream.frames count <;> rfl
    rw [shown, follow, decoderAfter, decoderAfter, decoderAfter, List.foldl_append]
  · rw [lastArrival, taken_tick]
    exact plays.last
  · rw [follow, showing_append, Bool.not_not]
  · intro allDue
    have pushedAll : ∀ unit ∈ stream.units, ∀ packet ∈ unit.packets, WasPushed later packet := by
      intro unit unitMem packet packetMem
      rw [WasPushed, pushed, samePushes]
      exact allDue.1 unit unitMem packet packetMem
    have due : ∀ packet arrival, (packet, arrival) ∈ pushes later →
        arrival + (videoConfig config).targetDelay ≤ now := by
      rw [pushed, plays.pushed]
      exact allDue.2
    apply delivered.all_of_none rfl pushedAll due
    have nothing := receiver.jitter.popAll_exhausts now
    rw [JitterBuffer.popAll, run] at nothing
    rw [nothing]

/-- What a receiver has made of `events`: the first `count` units have been shown,
and all of them once they were all due. -/
structure Watched (codecs : Codecs) (stream : OrderedStream maxPayload)
    (config : ReceiveRouter.Config) (callbacks : ReceiveRouter.Callbacks) (playback : Bool)
    (events : List Event) (count : Nat) : Prop where
  state :
    ((machine config callbacks playback).run events = (none : Option (LoneReceiver codecs)) ∧
      taken events = [] ∧ count = 0) ∨
    ∃ past, ∃ receiver : LoneReceiver codecs,
      (machine config callbacks playback).run events = some receiver ∧
        Plays stream config events count past receiver
  heard : (machine config callbacks playback).produced events =
    (showing codecs (stream.frames count)).filter (audible callbacks playback)
  finished : ∀ past now, past ++ [.tick now] <+: events → AllDue stream config past now →
    count = stream.units.length

theorem Watched.packet {packet : RtpPacket} {arrival : SteadyTime}
    (watched : Watched codecs stream config callbacks playback events count)
    (carries : Carries stream config (events ++ [.packet packet arrival])) :
    Watched codecs stream config callbacks playback (events ++ [.packet packet arrival]) count := by
  rcases carries.sent packet arrival (by simp) with ⟨unit, unitMem, packetMem⟩
  refine ⟨.inr ?_, ?_, ?_⟩
  · rcases watched.state with ⟨run, nothing, zero⟩ | ⟨past, receiver, run, plays⟩
    · have video := carries.video packet arrival (by simp)
      refine ⟨_, _, ?_, zero ▸ plays_openFor video nothing unitMem packetMem arrival⟩
      rw [Machine.run_snoc, run]
      rfl
    · refine ⟨_, _, ?_, plays.take unitMem packetMem arrival⟩
      rw [Machine.run_snoc, run]
      rfl
  · have quiet :
        (machine config callbacks playback : Machine (Option (LoneReceiver codecs)) _ _).output
        ((machine config callbacks playback).run events) (.packet packet arrival) = [] := by
      cases (machine config callbacks playback).run events <;> rfl
    rw [Machine.produced_snoc, watched.heard, quiet, List.append_nil]
  · intro past now isPrefix allDue
    rcases List.prefix_concat_iff.mp isPrefix with same | shorter
    · cases (List.append_inj' same rfl).2
    · exact watched.finished past now shorter allDue

theorem Watched.tick {now : SteadyTime}
    (watched : Watched codecs stream config callbacks playback events count)
    (carries : Carries stream config (events ++ [.tick now])) :
    ∃ total, Watched codecs stream config callbacks playback (events ++ [.tick now]) total := by
  rcases watched.state with ⟨run, nothing, zero⟩ | ⟨past, receiver, run, plays⟩
  · refine ⟨count, .inl ⟨?_, ?_, zero⟩, ?_, ?_⟩
    · rw [Machine.run_snoc, run]
      rfl
    · rw [taken_tick, nothing]
    · rw [Machine.produced_snoc, watched.heard, run]
      exact List.append_nil _
    · intro earlier last isPrefix allDue
      rcases List.prefix_concat_iff.mp isPrefix with same | shorter
      · rcases List.append_inj' same rfl with ⟨samePast, _⟩
        rw [samePast] at allDue
        -- Nothing has been taken, so there is no unit to take.
        cases noUnits : stream.units with
        | nil => exact zero
        | cons unit rest =>
            rcases allDue.1 unit (by rw [noUnits]; exact List.mem_cons_self) _
              (List.head_mem unit.nonempty) with ⟨arrival, isPushed⟩
            rw [pushes_arrivals, nothing] at isPushed
            cases isPushed
      · exact watched.finished earlier last shorter allDue
  · rcases plays.tick (carries.inTime events now (List.prefix_refl _))
      (carries.awake events now (List.prefix_refl _)) with
      ⟨after, heard, total, later, ticked, playsOn, shown, grows, finished⟩
    have stepped : (machine config callbacks playback).step (some receiver) (.tick now) =
        (some after, heard.filter (audible callbacks playback)) := by
      simp only [machine, step, ticked]
    refine ⟨total, .inr ⟨later, after, ?_, playsOn⟩, ?_, ?_⟩
    · rw [Machine.run_snoc, run, Machine.next, stepped]
    · rw [Machine.produced_snoc, watched.heard, run, Machine.output, stepped, shown,
        List.filter_append]
    · intro earlier last isPrefix allDue
      rcases List.prefix_concat_iff.mp isPrefix with same | shorter
      · rcases List.append_inj' same rfl with ⟨samePast, sameTick⟩
        cases sameTick
        rw [samePast] at allDue
        exact finished allDue
      · have all := watched.finished earlier last shorter allDue
        have atMost := playsOn.delivered.1.atMost
        omega

theorem watched_run (codecs : Codecs) (callbacks : ReceiveRouter.Callbacks) (playback : Bool)
    (carries : Carries stream config events) :
    ∃ count, Watched codecs stream config callbacks playback events count := by
  induction events using List.reverseRecOn with
  | nil =>
      refine ⟨0, .inl ⟨rfl, rfl, rfl⟩, rfl, ?_⟩
      intro past now isPrefix
      simp at isPrefix
  | append_singleton past event induction =>
      rcases induction carries.before with ⟨count, watched⟩
      cases event with
      | packet received arrival => exact ⟨count, watched.packet carries⟩
      | tick now => exact watched.tick carries

end Run

/-! ## What a channel carries -/

section Carried

variable {handler : RTPHandler} {frames : List EncodedFrame} {sent : List (List RtpPacket)}
  {stream : OrderedStream handler.maxPayload} {config : ReceiveRouter.Config} {events : List Event}

theorem mem_flatten_packets (arePackets : stream.units.map SentUnit.packets = sent)
    {packet : RtpPacket} :
    packet ∈ sent.flatten ↔ ∃ unit ∈ stream.units, packet ∈ unit.packets := by
  rw [← arePackets, List.mem_flatten]
  simp only [List.mem_map, exists_exists_and_eq_and]

/-- Nothing is lost of a packet on its way. -/
theorem sent_of_carried (packetized : handler.packetizeAll frames = .ok sent)
    (sevenBits : handler.payloadType &&& 0x7F = handler.payloadType) {original packet : RtpPacket}
    (isSent : original ∈ sent.flatten) (crossed : Carried original packet) :
    packet ∈ sent.flatten := by
  have portable := (emits_packetizeAll packetized original isSent).portable sevenBits
  rw [portable.carried crossed]
  exact isSent

theorem carries_of_carried (transmission : Transmission handler frames sent)
    (arePackets : stream.units.map SentUnit.packets = sent)
    (sevenBits : handler.payloadType &&& 0x7F = handler.payloadType)
    (notAudio : handler.payloadType ≠ config.audioPayloadType)
    (carried : ∀ packet arrival, .packet packet arrival ∈ events →
      ∃ original ∈ sent.flatten, Carried original packet)
    (onTime : ∀ past now, past ++ [.tick now] <+: events →
      OnTime sent config.targetDelay (arrivals past) now)
    (awake : ∀ past now, past ++ [.tick now] <+: events →
      ∀ arrival ∈ lastArrival past, now - arrival ≤ config.streamTimeout) :
    Carries stream config events := by
  have original : ∀ packet arrival, .packet packet arrival ∈ events → packet ∈ sent.flatten := by
    intro packet arrival member
    rcases carried packet arrival member with ⟨first, isSent, crossed⟩
    exact sent_of_carried transmission.packetized sevenBits isSent crossed
  refine ⟨?_, ?_, ?_, awake⟩
  · intro packet arrival member
    exact (mem_flatten_packets arePackets).mp (original packet arrival member)
  · intro packet arrival member
    have isSent := original packet arrival member
    rw [(emits_packetizeAll transmission.packetized packet isSent).payloadType]
    exact notAudio
  · intro past now isPrefix index position unit later le isUnit isLater
    have packetsOf : ∀ (index : Nat) (unit : SentUnit handler.maxPayload),
        stream.units[index]? = some unit → sent[index]? = some unit.packets := by
      intro index unit isUnit
      rw [← arePackets, List.getElem?_map, isUnit]
      rfl
    exact onTime past now isPrefix index position unit.packets later.packets le
      (packetsOf index unit isUnit) (packetsOf position later isLater)

theorem allDue_of_taken (arePackets : stream.units.map SentUnit.packets = sent) {now : SteadyTime}
    (allTaken : ∀ packet ∈ sent.flatten, ∃ arrival, (packet, arrival) ∈ taken events)
    (due : ∀ packet arrival, (packet, arrival) ∈ taken events →
      arrival + config.targetDelay ≤ now) :
    AllDue stream config events now := by
  refine ⟨?_, due⟩
  intro unit unitMem packet packetMem
  rw [WasPushed, pushes_arrivals]
  exact allTaken packet ((mem_flatten_packets arePackets).mpr ⟨unit, unitMem, packetMem⟩)

end Carried

end LoneReceiver

/-! ## At the receive router -/

namespace ReceiveRouter

open LoneReceiver (arrivals lastArrival taken showing audible)

/-- What is heard of a stream that a channel carries. -/
theorem shown_of_carries (codecs : Codecs) {config : Config} (callbacks : Callbacks)
    (playback : Bool) {events : List Event} {ssrc : BitVec 32} {maxPayload : Nat}
    {stream : OrderedStream maxPayload}
    (carries : LoneReceiver.Carries stream config
      (ownEvents codecs config callbacks playback events ssrc)) :
    ∃ count,
      heardFor ssrc (effects codecs config callbacks playback events) <+:
        (showing codecs (stream.frames count)).filter (audible callbacks playback) ∧
      (((machine config callbacks playback : Machine (ReceiveRouter codecs) _ _).run
          events).working = {} →
        heardFor ssrc (effects codecs config callbacks playback events) =
          (showing codecs (stream.frames count)).filter (audible callbacks playback)) ∧
      ∀ past now,
        past ++ [.tick now] <+: ownEvents codecs config callbacks playback events ssrc →
          LoneReceiver.AllDue stream config past now → count = stream.units.length := by
  rcases LoneReceiver.watched_run codecs callbacks playback carries with ⟨count, watched⟩
  have settled := settled_run codecs config callbacks playback events ssrc
  rw [watched.heard] at settled
  refine ⟨count, ⟨_, settled.2⟩, ?_, watched.finished⟩
  intro done
  rw [← settled.2, settle_done codecs callbacks playback done, List.append_nil]

/-- A participant's access units at another one's router, among the packets of any
other stream: what is heard of the sender is always the beginning of an
announcement and the pictures of a prefix of its access units, in order; exactly
that when no tick is in progress; and the prefix is all of them once a tick has
found all of them due. -/
theorem sender_video_shown {handler : RTPHandler} {frames : List EncodedFrame}
    {sent : List (List RtpPacket)} (transmission : Transmission handler frames sent)
    (inOrder : (frames.map EncodedFrame.rtpTimestamp).Pairwise fun earlier later =>
      1 ≤ SerialNumber.forward earlier later ∧ SerialNumber.forward earlier later < 2 ^ 31)
    (sevenBits : handler.payloadType &&& 0x7F = handler.payloadType)
    (codecs : Codecs) (config : Config) (callbacks : Callbacks) (playback : Bool)
    (notAudio : handler.payloadType ≠ config.audioPayloadType) (events : List Event)
    (carried : ∀ packet arrival, .packet packet arrival ∈
        ownEvents codecs config callbacks playback events handler.ssrc →
      ∃ original ∈ sent.flatten, Carried original packet)
    (onTime : ∀ past now,
      past ++ [.tick now] <+: ownEvents codecs config callbacks playback events handler.ssrc →
        OnTime sent config.targetDelay (arrivals past) now)
    (awake : ∀ past now,
      past ++ [.tick now] <+: ownEvents codecs config callbacks playback events handler.ssrc →
        ∀ arrival ∈ lastArrival past, now - arrival ≤ config.streamTimeout) :
    ∃ shown : List EncodedFrame,
      (∃ count, List.Forall₂ Delivers (frames.take count) shown) ∧
      heardFor handler.ssrc (effects codecs config callbacks playback events) <+:
        (showing codecs shown).filter (audible callbacks playback) ∧
      (((machine config callbacks playback : Machine (ReceiveRouter codecs) _ _).run
          events).working = {} →
        heardFor handler.ssrc (effects codecs config callbacks playback events) =
          (showing codecs shown).filter (audible callbacks playback)) ∧
      ∀ past now,
        past ++ [.tick now] <+: ownEvents codecs config callbacks playback events handler.ssrc →
          (∀ packet ∈ sent.flatten, ∃ arrival, (packet, arrival) ∈ taken past) →
          (∀ packet arrival, (packet, arrival) ∈ taken past → arrival + config.targetDelay ≤ now) →
          List.Forall₂ Delivers frames shown := by
  rcases transmission.exists_orderedStream inOrder with ⟨stream, arePackets, carry⟩
  have carries := LoneReceiver.carries_of_carried transmission arePackets sevenBits notAudio carried
    onTime awake
  rcases shown_of_carries codecs callbacks playback carries with ⟨count, isPrefix, done, all⟩
  refine ⟨stream.frames count, ⟨count, ?_⟩, isPrefix, done, ?_⟩
  · exact delivers_of_carry (List.forall₂_take count carry) .h264
  · intro past now isTick allTaken due
    have allDue := LoneReceiver.allDue_of_taken arePackets allTaken due
    rw [all past now isTick allDue, OrderedStream.frames, List.take_length]
    exact delivers_of_carry carry .h264

/-- Codecs that hand an access unit on as it is. -/
def plainCodecs : Codecs where
  VideoDecoder := Unit
  VideoFrame := EncodedFrame
  AudioDecoder := Unit
  AudioFrame := EncodedFrame
  openVideo := ()
  decodeVideo := fun _ frame => ((), .ok frame)
  openAudio := ()
  decodeAudio := fun _ frame => ((), .ok frame)

/-- Two packets in the wrong order with one of another stream between them. -/
def twoSenders : List Event :=
  [.pushPacket slicePacket 0, .pushPacket { payloadType := 111, ssrc := 9, payload := [1] } 1,
    .pushPacket spsPacket 5, .tick 50000005, .proceed, .proceed, .proceed, .proceed, .proceed]

theorem sender_video_shown_two_senders :
    ∃ shown, List.Forall₂ Delivers [twoNalFrame] shown ∧
      heardFor 7 (effects plainCodecs {} ⟨true, true, true⟩ true twoSenders) =
        (showing plainCodecs shown).filter (audible ⟨true, true, true⟩ true) := by
  let both : List LoneReceiver.Event := [.packet slicePacket 0, .packet spsPacket 5]
  have own : ownEvents plainCodecs {} ⟨true, true, true⟩ true twoSenders 7 =
      both ++ [.tick 50000005] := rfl
  have takenBoth : ∀ packet ∈ [spsPacket, slicePacket], ∃ arrival,
    (packet, arrival) ∈ taken both := by
    intro packet member
    rcases List.mem_cons.mp member with same | isSlice
    · exact ⟨5, by rw [same]; decide⟩
    · exact ⟨0, by rw [List.mem_singleton.mp isSlice]; decide⟩
  have onlyTick : ∀ past now, past ++ [.tick now] <+:
      ownEvents plainCodecs {} ⟨true, true, true⟩ true twoSenders 7 → past = both ∧
        now = 50000005 := by
    intro past now isPrefix
    rw [own] at isPrefix
    rcases past with _ | ⟨first, _ | ⟨second, _ | ⟨third, rest⟩⟩⟩ <;> simp_all [both]
  have carried : ∀ packet arrival, .packet packet arrival ∈
      ownEvents plainCodecs {} ⟨true, true, true⟩ true twoSenders 7 →
        ∃ original ∈ [[spsPacket, slicePacket]].flatten, Carried original packet := by
    intro packet arrival member
    rw [own] at member
    simp only [both, List.cons_append, List.nil_append, List.mem_cons,
      LoneReceiver.Event.packet.injEq,
      reduceCtorEq, List.not_mem_nil, or_false] at member
    refine ⟨packet, ?_, .refl⟩
    rcases member with ⟨same, _⟩ | ⟨same, _⟩ <;> rw [same] <;> decide
  rcases sender_video_shown twoNal_transmission (List.pairwise_singleton _ _) rfl plainCodecs {}
    ⟨true, true, true⟩ true (by decide) twoSenders carried
    (by
      intro past now isPrefix index position packets later _ isPackets _ _ packet packetMem
      rw [List.mem_singleton.mp (List.mem_of_getElem? isPackets)] at packetMem
      rw [JitterBuffer.WasPushed, LoneReceiver.pushes_arrivals, (onlyTick past now isPrefix).1]
      exact takenBoth packet packetMem)
    (by
      intro past now isPrefix arrival isLast
      rw [(onlyTick past now isPrefix).1] at isLast
      rw [(onlyTick past now isPrefix).2, ← Option.some.inj isLast]
      decide) with ⟨shown, _, _, heard, all⟩
  refine ⟨shown, all both 50000005 (own ▸ List.prefix_refl _) takenBoth ?_, heard rfl⟩
  intro packet arrival isTaken
  have takenAt : (packet, arrival) ∈ [(slicePacket, (0 : SteadyTime)), (spsPacket, 5)] := isTaken
  simp only [List.mem_cons, Prod.mk.injEq, List.not_mem_nil, or_false] at takenAt
  rcases takenAt with ⟨_, same⟩ | ⟨_, same⟩ <;> rw [same] <;> decide

end ReceiveRouter

end Vela
