import Vela.Media.LoneReceiver
import Vela.Media.StreamCallbacks

/-! # What a tick has still to do for a stream

A tick pulls frames under the lock and works them off after it. Its work on one
SSRC is a list of tasks; done to the end they leave the stream as the lone
receiver's tick leaves it, however many packets come in meanwhile. -/

namespace Vela

open Foundation

namespace ReceiveRouter

open LoneReceiver (Heard audible)

variable {codecs : Codecs}

/-! ## A stream on its own -/

def Stream.loneDecoder (stream : Stream codecs) : Option (LoneDecoder codecs) :=
  if stream.video then stream.vdec.map fun decoder => .video decoder stream.announced
  else stream.adec.map .audio

/-- A stream of the map, without its number. -/
def Stream.alone (stream : Stream codecs) : Option (LoneReceiver codecs) :=
  stream.loneDecoder.map fun decoder => ⟨stream.jitter, decoder, stream.lastPacket⟩

theorem Stream.alone_isSome {stream : Stream codecs} (has : stream.HasDecoder) :
    ∃ receiver, stream.alone = some receiver := by
  rw [HasDecoder] at has
  rw [alone, loneDecoder]
  split at has
  · rename_i video
    rcases Option.isSome_iff_exists.mp has with ⟨decoder, found⟩
    exact ⟨_, by rw [if_pos video, found]; rfl⟩
  · rename_i audio
    rcases Option.isSome_iff_exists.mp has with ⟨decoder, found⟩
    exact ⟨_, by rw [if_neg audio, found]; rfl⟩

theorem alone_newStream (router : ReceiveRouter codecs) (packet : RtpPacket) :
    (router.newStream packet).alone = some (.openFor router.config packet) := by
  rw [newStream, LoneReceiver.openFor]
  by_cases audio : packet.payloadType = router.config.audioPayloadType
  · simp [audio, Stream.alone, Stream.loneDecoder, makeJbConfig]
  · simp [audio, Stream.alone, Stream.loneDecoder, makeJbConfig]

theorem alone_feed (stream : Stream codecs) (packet : RtpPacket) (arrival : SteadyTime) :
    (stream.feed packet arrival).alone =
      stream.alone.map fun receiver => receiver.take packet arrival := by
  simp only [Stream.alone, Stream.loneDecoder, Stream.feed, Option.map_map]
  rfl

/-! ## What is still to be done -/

/-- A piece of work that a tick does after the lock. -/
inductive Task where
  | announce
  | decode (frame : EncodedFrame)
  | farewell

def Ready.tasks (ready : Ready) : List Task :=
  (if ready.video && ready.announce then [.announce] else []) ++ ready.frames.map .decode

/-- The work on one SSRC that a tick has still to do. -/
def Tick.tasksFor (tick : Tick) (ssrc : BitVec 32) : List Task :=
  (tick.ready.flatMap fun ready => if ready.ssrc = ssrc then ready.tasks else []) ++
    tick.removedVideo.flatMap fun removal => if removal.ssrc = ssrc then [.farewell] else []

def Task.perform (receiver : Option (LoneReceiver codecs)) :
    Task → Option (LoneReceiver codecs) × List (Heard codecs)
  | .announce => (receiver, [.streamAdded])
  | .decode frame =>
      match receiver with
      | none => (none, [])
      | some receiver => (some (receiver.decode frame).1, (receiver.decode frame).2)
  | .farewell => (receiver, [.streamRemoved])

def performAll : Option (LoneReceiver codecs) → List Task →
    Option (LoneReceiver codecs) × List (Heard codecs)
  | receiver, [] => (receiver, [])
  | receiver, task :: rest =>
      ((performAll (task.perform receiver).1 rest).1,
        (task.perform receiver).2 ++ (performAll (task.perform receiver).1 rest).2)

/-- What becomes of an SSRC's stream, and what is heard, once the tick returns. -/
def settle (callbacks : Callbacks) (playback : Bool) (ssrc : BitVec 32)
    (router : ReceiveRouter codecs) : Option (LoneReceiver codecs) × List (Heard codecs) :=
  let (receiver, heard) :=
    performAll ((router.streams.find? ssrc).bind Stream.alone) (router.working.tasksFor ssrc)
  (receiver, heard.filter (audible callbacks playback))

theorem performAll_append (receiver : Option (LoneReceiver codecs)) (tasks later : List Task) :
    performAll receiver (tasks ++ later) =
      ((performAll (performAll receiver tasks).1 later).1,
        (performAll receiver tasks).2 ++ (performAll (performAll receiver tasks).1 later).2) := by
  induction tasks generalizing receiver with
  | nil => rfl
  | cons task rest induction => simp [performAll, induction]

theorem performAll_decode (receiver : LoneReceiver codecs) (frames : List EncodedFrame) :
    performAll (some receiver) (frames.map .decode) =
      (some (receiver.decodeAll frames).1, (receiver.decodeAll frames).2) := by
  induction frames generalizing receiver with
  | nil => rfl
  | cons frame rest induction =>
      rw [List.map_cons, performAll, LoneReceiver.decodeAll]
      simp only [Task.perform, induction]

theorem performAll_announce (receiver : LoneReceiver codecs) (frames : List EncodedFrame) :
    performAll (some receiver) (.announce :: frames.map .decode) =
      (some (receiver.decodeAll frames).1, .streamAdded :: (receiver.decodeAll frames).2) := by
  rw [performAll]
  simp only [Task.perform, performAll_decode]
  rfl

/-- A packet that comes in before the work is done makes no difference to it. -/
theorem performAll_take (receiver : Option (LoneReceiver codecs)) (packet : RtpPacket)
    (arrival : SteadyTime) (tasks : List Task) :
    performAll (receiver.map fun receiver => receiver.take packet arrival) tasks =
      ((performAll receiver tasks).1.map fun receiver => receiver.take packet arrival,
        (performAll receiver tasks).2) := by
  induction tasks generalizing receiver with
  | nil => rfl
  | cons task rest induction =>
      have once : task.perform (receiver.map fun receiver => receiver.take packet arrival) =
          ((task.perform receiver).1.map fun receiver => receiver.take packet arrival,
            (task.perform receiver).2) := by
        cases task with
        | announce => rfl
        | farewell => rfl
        | decode frame =>
            cases receiver with
            | none => rfl
            | some receiver =>
                simp only [Option.map_some, Task.perform, LoneReceiver.decode_take]
      rw [performAll, once, induction]
      rfl

/-- Farewells are owed for a stream that is gone, whatever has come in its place. -/
theorem performAll_farewells (receiver : Option (LoneReceiver codecs)) {tasks : List Task}
    (farewells : ∀ task ∈ tasks, task = .farewell) :
    performAll receiver tasks = (receiver, tasks.map fun _ => .streamRemoved) := by
  induction tasks with
  | nil => rfl
  | cons task rest induction =>
      rw [performAll, farewells task List.mem_cons_self]
      simp only [Task.perform]
      rw [induction fun other member => farewells other (List.mem_cons_of_mem _ member)]
      rfl

/-! ## A tick, under the lock -/

/-- The loop that pops what is ready, in one step. -/
theorem drain_eq (now : SteadyTime) (steps : Nat) (stream : Stream codecs) (ready : Ready) :
    drain now steps stream ready =
      ({ stream with
          jitter := (stream.jitter.popReady now steps).1
          announced := stream.announced ||
            (stream.video && !(stream.jitter.popReady now steps).2.isEmpty) },
        { ready with
          announce := ready.announce ||
            (stream.video && !stream.announced && !(stream.jitter.popReady now steps).2.isEmpty)
          frames := ready.frames ++ (stream.jitter.popReady now steps).2 }) := by
  induction steps generalizing stream ready with
  | zero => simp [drain, JitterBuffer.popReady]
  | succ steps induction =>
      rw [drain, JitterBuffer.popReady]
      rcases stream.jitter.pop now with ⟨jitter, popped⟩
      cases popped with
      | none => simp
      | some frame =>
          dsimp only
          split
          · rename_i fresh
            rw [Bool.and_eq_true, Bool.not_eq_true'] at fresh
            rw [induction]
            simp [fresh.1, fresh.2]
          · rename_i known
            rw [induction]
            cases video : stream.video with
            | false => simp
            | true =>
                have announced : stream.announced = true := by simpa [video] using known
                simp [announced]

/-- One round of the loop over the streams leaves to do, and to keep, what the lone
receiver's tick makes of the stream. -/
theorem visit_settles (config : Config) (now : SteadyTime) (ssrc : BitVec 32)
    {stream : Stream codecs} {receiver : LoneReceiver codecs}
    (alone : stream.alone = some receiver) :
    performAll ((visit config now ssrc stream).1.bind Stream.alone)
        ((visit config now ssrc stream).2.tasksFor ssrc) =
      receiver.tick config now := by
  rcases stream with ⟨number, video, jitter, vdec, adec, announced, lastPacket⟩
  rw [visit, LoneReceiver.tick]
  cases video with
  | false =>
      cases adec with
      | none => cases alone
      | some decoder =>
          cases alone
          dsimp only
          split
          · rfl
          · rw [drain_eq]
            rcases popped : jitter.popReady now (jitter.frameCount + 1) with ⟨after, frames⟩
            simp only [JitterBuffer.popAll, popped]
            cases frames with
            | nil => rfl
            | cons frame frames =>
                have performed := performAll_decode
                  (⟨after, .audio decoder, lastPacket⟩ : LoneReceiver codecs) (frame :: frames)
                simpa [Tick.tasksFor, Ready.tasks, Stream.alone, Stream.loneDecoder,
                  LoneReceiver.announce] using performed
  | true =>
      cases vdec with
      | none => cases alone
      | some decoder =>
          cases alone
          dsimp only
          split
          · cases announced <;>
              simp [Tick.tasksFor, performAll, Task.perform, LoneReceiver.farewell]
          · rw [drain_eq]
            rcases popped : jitter.popReady now (jitter.frameCount + 1) with ⟨after, frames⟩
            simp only [JitterBuffer.popAll, popped]
            cases frames with
            | nil => cases announced <;> rfl
            | cons frame frames =>
                have performed := performAll_decode
                  (⟨after, .video decoder true, lastPacket⟩ : LoneReceiver codecs) (frame :: frames)
                cases announced with
                | true =>
                    simpa [Tick.tasksFor, Ready.tasks, Stream.alone, Stream.loneDecoder,
                      LoneReceiver.announce] using performed
                | false =>
                    have told := performAll_announce
                      (⟨after, .video decoder true, lastPacket⟩ : LoneReceiver codecs)
                      (frame :: frames)
                    simpa [Tick.tasksFor, Ready.tasks, Stream.alone, Stream.loneDecoder,
                      LoneReceiver.announce] using told

section Sweep

variable {config : Config} {now : SteadyTime} {ssrc : BitVec 32}
variable {streams : OrderedMap (BitVec 32) (Stream codecs) ssrcKeyLess}

theorem visit_elsewhere {other : BitVec 32} (different : other ≠ ssrc) (stream : Stream codecs) :
    (visit config now other stream).2.tasksFor ssrc = [] := by
  rcases visit_cases config now other stream with reaped | ⟨frames, jitter, polled⟩
  · rw [reaped]
    simp only [Tick.tasksFor, List.flatMap_nil, List.nil_append]
    split <;> simp [different]
  · rw [polled]
    simp only [Tick.tasksFor, List.flatMap_nil, List.append_nil]
    split <;> simp [different]

/-- The work that a tick finds for an SSRC comes from the one stream of that SSRC. -/
theorem sweep_tasksFor (sorted : streams.Sorted) (ssrc : BitVec 32) :
    (sweep config now streams.entries).tasksFor ssrc =
      match streams.find? ssrc with
      | none => []
      | some stream => (visit config now ssrc stream).2.tasksFor ssrc := by
  simp only [Tick.tasksFor, sweep, List.flatMap_assoc]
  rw [sorted.flatMap_find? (ssrcKeyLess_strict _) _ fun entry _ different =>
      (List.append_eq_nil_iff.mp (visit_elsewhere different entry.2)).1,
    sorted.flatMap_find? (ssrcKeyLess_strict _) _ fun entry _ different =>
      (List.append_eq_nil_iff.mp (visit_elsewhere different entry.2)).2]
  cases streams.find? ssrc <;> rfl

end Sweep

/-! ## What is heard of an SSRC -/

def Tick.isDone : Tick → Bool
  | { ready := [], removedVideo := [] } => true
  | _ => false

theorem Tick.isDone_iff (tick : Tick) : tick.isDone = true ↔ tick = {} := by
  rcases tick with ⟨ready, removed⟩
  cases ready <;> cases removed <;> simp [isDone]

/-- The events that concern an SSRC: its packets, and the ticks that begin. -/
def concerns (ssrc : BitVec 32) (router : ReceiveRouter codecs) : Event → List LoneReceiver.Event
  | .pushPacket packet arrival => if packet.ssrc = ssrc then [.packet packet arrival] else []
  | .tick now => if router.working.isDone then [.tick now] else []
  | .proceed => []

def Callback.heard : Callback codecs → Heard codecs
  | .onVideoFrame _ frame => .picture frame
  | .onVideoStreamAdded _ => .streamAdded
  | .onVideoStreamRemoved _ => .streamRemoved

/-- The streams that were created for an SSRC. -/
def streamsOf (ssrc : BitVec 32) (effects : List (Effect codecs)) : List Nat :=
  effects.filterMap fun
    | .created stream owner _ => if owner = ssrc then some stream else none
    | _ => none

/-- A callback says whose it is; what is played comes from a stream. -/
def Effect.heardBy (ssrc : BitVec 32) (streams : List Nat) : Effect codecs → Option (Heard codecs)
  | .fired _ callback => if callback.ssrc = ssrc then some callback.heard else none
  | .enqueue stream sound => if stream ∈ streams then some (.sound sound) else none
  | _ => none

/-- What the application has heard of an SSRC. -/
def heardFor (ssrc : BitVec 32) (effects : List (Effect codecs)) : List (Heard codecs) :=
  effects.filterMap (Effect.heardBy ssrc (streamsOf ssrc effects))

/-- What comes to be heard with `more`, after `effects`. -/
def heardThen (ssrc : BitVec 32) (effects more : List (Effect codecs)) : List (Heard codecs) :=
  more.filterMap (Effect.heardBy ssrc (streamsOf ssrc (effects ++ more)))

theorem mem_streamsOf {ssrc : BitVec 32} {effects : List (Effect codecs)} {stream : Nat} :
    stream ∈ streamsOf ssrc effects ↔ ∃ video, .created stream ssrc video ∈ effects := by
  rw [streamsOf, List.mem_filterMap]
  constructor
  · rintro ⟨effect, inside, named⟩
    cases effect with
    | created number owner video =>
        dsimp only at named
        split at named
        · rename_i same
          cases named
          exact ⟨video, same ▸ inside⟩
        · cases named
    | fired _ _ => cases named
    | enqueue _ _ => cases named
    | dangling _ => cases named
  · rintro ⟨video, inside⟩
    exact ⟨_, inside, by simp⟩

/-- Whatever is played comes from a stream that was created. -/
def SoundsPlaced (effects : List (Effect codecs)) : Prop :=
  ∀ stream sound, .enqueue stream sound ∈ effects → ∃ owner video,
    .created stream owner video ∈ effects

theorem heardFor_append {ssrc : BitVec 32} {effects more : List (Effect codecs)}
    {router : ReceiveRouter codecs} (placed : SoundsPlaced effects)
    (registered : Registered (effects ++ more) router) :
    heardFor ssrc (effects ++ more) = heardFor ssrc effects ++ heardThen ssrc effects more := by
  rw [heardFor, List.filterMap_append, heardFor, heardThen]
  congr 1
  apply List.filterMap_congr
  intro effect inside
  cases effect with
  | created _ _ _ => rfl
  | fired _ _ => rfl
  | dangling _ => rfl
  | enqueue stream sound =>
      rcases placed stream sound inside with ⟨owner, video, created⟩
      have known : stream ∈ streamsOf ssrc (effects ++ more) ↔ stream ∈ streamsOf ssrc effects := by
        rw [mem_streamsOf, mem_streamsOf]
        constructor
        · rintro ⟨kind, again⟩
          have once := registered.once stream owner video ssrc kind
            (List.mem_append_left _ created) again
          exact ⟨video, once.1 ▸ created⟩
        · rintro ⟨kind, earlier⟩
          exact ⟨kind, List.mem_append_left _ earlier⟩
      simp only [Effect.heardBy, known]

theorem SoundsPlaced.change {effects more : List (Effect codecs)}
    {router next : ReceiveRouter codecs} (placed : SoundsPlaced effects)
    (registered : Registered effects router) (change : Change router next more) :
    SoundsPlaced (effects ++ more) := by
  intro stream sound enqueued
  rcases List.mem_append.mp enqueued with before | now
  · rcases placed stream sound before with ⟨owner, video, created⟩
    exact ⟨owner, video, List.mem_append_left _ created⟩
  · cases change with
    | created absent => cases List.mem_singleton.mp now
    | refreshed found same => cases now
    | began returned => cases now
    | announced working video announce => cases mem_fire now
    | finished working finished told => cases now
    | removed working => cases mem_fire now
    | idle => cases now
    | decoded working pulled told found same heard =>
        rcases heard with played | ⟨_, picture, fires⟩
        · rcases played _ now with ⟨_, equal⟩
          cases equal
          rcases registered.ready _ (by rw [working]; exact List.mem_cons_self) with
            ⟨held, present, number, video⟩
          have created := registered.created _ _ present
          rw [number] at created
          exact ⟨_, _, List.mem_append_left _ created⟩
        · rw [fires] at now
          cases mem_fire now

end ReceiveRouter

end Vela
