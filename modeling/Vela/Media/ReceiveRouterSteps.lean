import Vela.Media.ReceiveRouter
import Vela.Network.JitterBufferSteps

/-! # What one step of the receive router does

The outcome of a round of the tick's loop, the changes that a step can make, and
the invariant of the streams: the map holds the streams created for its SSRCs, and
a tick in progress points into them. -/

namespace Vela

open Foundation

theorem ssrcKeyLess_strict (keys : List (BitVec 32)) : StrictOrderOn ssrcKeyLess keys :=
  StrictOrderOn.of_measure BitVec.toNat (fun _ _ => BitVec.eq_of_toNat_eq)
    (fun _ _ => decide_eq_true_iff) keys

namespace JitterBuffer

/-- A pop that hands out a frame leaves fewer behind, and one that does not leaves
nothing for the next. -/
theorem pop_outcome (now : SteadyTime) (buffer : JitterBuffer) :
    match buffer.pop now with
    | (after, some _) => after.frameCount < buffer.frameCount
    | (after, none) => after.pop now = (after, none) := by
  have loop : ∀ (entries : List (BitVec 32 × PendingFrame)) (buffer : JitterBuffer),
      buffer.frames.entries = entries →
        match popLoop now entries buffer with
        | (after, some _) => after.frameCount < entries.length
        | (after, none) => after.pop now = (after, none) := by
    intro entries
    induction entries with
    | nil =>
        intro buffer same
        simp [pop, same, popLoop]
    | cons entry rest induction =>
        intro buffer same
        rcases entry with ⟨key, frame⟩
        rw [popLoop_cons]
        by_cases elapsed : delayElapsed buffer.config now frame = true
        · rw [if_pos elapsed]
          cases playable buffer.config frame with
          | none =>
              have later := induction (buffer.advance frame rest) rfl
              dsimp only
              generalize popLoop now rest (buffer.advance frame rest) = outcome at later ⊢
              rcases outcome with ⟨after, handed⟩
              cases handed with
              | none => exact later
              | some encoded => exact Nat.lt_succ_of_lt later
          | some encoded => exact Nat.lt_succ_self _
        · rw [if_neg elapsed]
          dsimp only
          rw [pop, same, popLoop_cons, if_neg elapsed]
  exact loop buffer.frames.entries buffer rfl

end JitterBuffer

namespace ReceiveRouter

variable {codecs : Codecs}

def Callback.ssrc : Callback codecs → BitVec 32
  | .onVideoFrame ssrc _ => ssrc
  | .onVideoStreamAdded ssrc => ssrc
  | .onVideoStreamRemoved ssrc => ssrc

/-! ## One round of the loop over the streams -/

/-- What `drain` changes: the frames it pulled, and the announcement of a video
stream that had none. -/
theorem drain_spec (now : SteadyTime) (steps : Nat) (stream : Stream codecs) (ready : Ready) :
    ∃ (frames : List EncodedFrame) (jitter : JitterBuffer),
      drain now steps stream ready =
        ({ stream with
            jitter
            announced := stream.announced || (stream.video && !frames.isEmpty) },
          { ready with
            announce := ready.announce || (stream.video && !stream.announced && !frames.isEmpty)
            frames := ready.frames ++ frames }) := by
  induction steps generalizing stream ready with
  | zero => exact ⟨[], stream.jitter, by simp [drain]⟩
  | succ steps induction =>
      rw [drain]
      split
      · rename_i jitter _
        exact ⟨[], jitter, by simp⟩
      · rename_i jitter frame _
        split
        · rename_i fresh
          rw [Bool.and_eq_true, Bool.not_eq_true'] at fresh
          rcases induction { stream with jitter, announced := true }
            { ready with announce := true, frames := ready.frames ++ [frame] } with
            ⟨frames, last, drained⟩
          refine ⟨frame :: frames, last, ?_⟩
          rw [drained]
          simp [fresh.1, fresh.2]
        · rename_i known
          rcases induction { stream with jitter }
            { ready with frames := ready.frames ++ [frame] } with ⟨frames, last, drained⟩
          refine ⟨frame :: frames, last, ?_⟩
          rw [drained]
          cases video : stream.video with
          | false => simp
          | true =>
              have announced : stream.announced = true := by simpa [video] using known
              simp [announced]

/-- What one round does: an idle stream goes, any other stays with what was pulled
from it. -/
theorem visit_cases (config : Config) (now : SteadyTime) (ssrc : BitVec 32)
    (stream : Stream codecs) :
    visit config now ssrc stream =
        (none,
          { removedVideo :=
              if stream.video && stream.announced then [⟨ssrc, stream.number⟩] else [] }) ∨
      ∃ (frames : List EncodedFrame) (jitter : JitterBuffer),
        visit config now ssrc stream =
          (some { stream with
              jitter
              announced := stream.announced || (stream.video && !frames.isEmpty) },
            { ready :=
                if frames.isEmpty then [] else
                  [{ ssrc
                     video := stream.video
                     announce := stream.video && !stream.announced && !frames.isEmpty
                     stream := stream.number
                     frames }] }) := by
  rw [visit]
  split
  · exact .inl rfl
  · right
    rcases drain_spec now (stream.jitter.frameCount + 1) stream
      { ssrc, video := stream.video, announce := false, stream := stream.number, frames := [] } with
      ⟨frames, jitter, drained⟩
    refine ⟨frames, jitter, ?_⟩
    rw [drained]
    simp

section Sweep

variable {config : Config} {now : SteadyTime} {ssrc : BitVec 32}

theorem mem_kept {entries : List (BitVec 32 × Stream codecs)} {stays : Stream codecs} :
    (ssrc, stays) ∈ kept config now entries ↔
      ∃ stream, (ssrc, stream) ∈ entries ∧ (visit config now ssrc stream).1 = some stays := by
  rw [kept, List.mem_filterMap]
  constructor
  · intro member
    rcases member with ⟨⟨key, stream⟩, inside, selected⟩
    simp only [Option.map_eq_some_iff, Prod.mk.injEq] at selected
    rcases selected with ⟨_, visited, rfl, rfl⟩
    exact ⟨stream, inside, visited⟩
  · intro member
    rcases member with ⟨stream, inside, visited⟩
    exact ⟨(ssrc, stream), inside, by simp [visited]⟩

variable {streams : OrderedMap (BitVec 32) (Stream codecs) ssrcKeyLess}

theorem sorted_kept (sorted : streams.Sorted) :
    (streams.leave (kept config now streams.entries)).Sorted := by
  apply List.Pairwise.filterMap _ _ sorted
  intro left right before newLeft leftStays newRight rightStays
  simp only [Option.map_eq_some_iff] at leftStays rightStays
  rcases leftStays with ⟨_, _, rfl⟩
  rcases rightStays with ⟨_, _, rfl⟩
  exact before

theorem mem_entries_iff (sorted : streams.Sorted) {stream : Stream codecs} :
    streams.find? ssrc = some stream ↔ (ssrc, stream) ∈ streams.entries :=
  OrderedMap.find?_eq_some_iff sorted (ssrcKeyLess_strict _)

theorem find?_kept (sorted : streams.Sorted) (ssrc : BitVec 32) :
    (streams.leave (kept config now streams.entries)).find? ssrc =
      (streams.find? ssrc).bind fun stream => (visit config now ssrc stream).1 := by
  apply Option.ext
  intro stays
  rw [mem_entries_iff (sorted_kept sorted), OrderedMap.leave_entries, mem_kept,
    Option.bind_eq_some_iff]
  simp only [mem_entries_iff sorted]

end Sweep

/-! ## What one step does -/

/-- The decoder of a stream's kind is there. -/
def Stream.HasDecoder (stream : Stream codecs) : Prop :=
  if stream.video then stream.vdec.isSome else stream.adec.isSome

/-- The same stream, with packets or a decoder that have moved on. -/
structure Stream.Refreshed (before after : Stream codecs) : Prop where
  number : after.number = before.number
  video : after.video = before.video
  announced : after.announced = before.announced
  decoder : before.HasDecoder → after.HasDecoder

theorem Stream.refreshed_feed (stream : Stream codecs) (packet : RtpPacket)
    (arrival : SteadyTime) : stream.Refreshed (stream.feed packet arrival) :=
  ⟨rfl, rfl, rfl, fun has => has⟩

/-- The streams of the map are the ones created for their SSRCs, a tick points
into them, and the callbacks were fired for streams created as video. -/
structure Registered (effects : List (Effect codecs)) (router : ReceiveRouter codecs) : Prop where
  sorted : router.streams.Sorted
  created : ∀ ssrc stream, router.streams.find? ssrc = some stream →
    .created stream.number ssrc stream.video ∈ effects
  decoder : ∀ ssrc stream, router.streams.find? ssrc = some stream → stream.HasDecoder
  numbered : ∀ number ssrc video, .created number ssrc video ∈ effects → number < router.allocated
  once : ∀ number ssrc video other kind, .created number ssrc video ∈ effects →
    .created number other kind ∈ effects → other = ssrc ∧ kind = video
  ready : ∀ ready ∈ router.working.ready, ∃ stream, router.streams.find? ready.ssrc = some stream ∧
    stream.number = ready.stream ∧ stream.video = ready.video
  removed : ∀ removal ∈ router.working.removedVideo,
    .created removal.stream removal.ssrc true ∈ effects
  fired : ∀ stream callback, .fired stream callback ∈ effects →
    .created stream callback.ssrc true ∈ effects
  pointers : ∀ stream, .dangling stream ∉ effects

inductive Change (router : ReceiveRouter codecs) :
    ReceiveRouter codecs → List (Effect codecs) → Prop where
  | created {packet : RtpPacket} {arrival : SteadyTime}
      (absent : router.streams.find? packet.ssrc = none) :
      Change router
        { router with
          streams := router.streams.store packet.ssrc
            ((router.newStream packet).feed packet arrival)
          allocated := router.allocated + 1 }
        [.created router.allocated packet.ssrc (router.newStream packet).video]
  | refreshed {ssrc : BitVec 32} {before after : Stream codecs}
      (found : router.streams.find? ssrc = some before) (same : before.Refreshed after) :
      Change router { router with streams := router.streams.store ssrc after } []
  | began {now : SteadyTime} (returned : router.working = {}) :
      Change router
        { router with
          streams := router.streams.leave (kept router.config now router.streams.entries)
          working := sweep router.config now router.streams.entries } []
  | announced {ready : Ready} {rest : List Ready} {removals : List Removal}
      (working : router.working = ⟨ready :: rest, removals⟩)
      (video : ready.video = true) (announce : ready.announce = true) :
      Change router { router with working := ⟨{ ready with announce := false } :: rest, removals⟩ }
        (router.fire ready.stream (.onVideoStreamAdded ready.ssrc))
  | finished {ready : Ready} {rest : List Ready} {removals : List Removal}
      (working : router.working = ⟨ready :: rest, removals⟩) (finished : ready.frames = [])
      (told : ready.video = true → ready.announce = false) :
      Change router { router with working := ⟨rest, removals⟩ } []
  | decoded {ready : Ready} {frame : EncodedFrame} {frames : List EncodedFrame} {rest : List Ready}
      {removals : List Removal} {before after : Stream codecs} {effects : List (Effect codecs)}
      (working : router.working = ⟨ready :: rest, removals⟩)
      (pulled : ready.frames = frame :: frames)
      (told : ready.video = true → ready.announce = false)
      (found : router.streams.find? ready.ssrc = some before) (same : before.Refreshed after)
      (heard : (∀ effect ∈ effects, ∃ sound, effect = .enqueue ready.stream sound) ∨
        ready.video = true ∧
          ∃ picture, effects = router.fire ready.stream (.onVideoFrame ready.ssrc picture)) :
      Change router
        { router with
          streams := router.streams.store ready.ssrc after
          working := ⟨{ ready with frames } :: rest, removals⟩ } effects
  | removed {removal : Removal} {rest : List Removal}
      (working : router.working = ⟨[], removal :: rest⟩) :
      Change router { router with working := ⟨[], rest⟩ }
        (router.fire removal.stream (.onVideoStreamRemoved removal.ssrc))
  | idle : Change router router []

theorem Change.callbacks {router next : ReceiveRouter codecs} {effects : List (Effect codecs)}
    (change : Change router next effects) : next.callbacks = router.callbacks := by
  cases change <;> rfl

/-- A decode with the decoder where it should be. -/
theorem decode_cases {router : ReceiveRouter codecs} {ready : Ready} {stream : Stream codecs}
    (found : router.streams.find? ready.ssrc = some stream) (number : stream.number = ready.stream)
    (video : stream.video = ready.video) (has : stream.HasDecoder) (frame : EncodedFrame) :
    ∃ after effects,
      router.decode ready frame =
        ({ router with streams := router.streams.store ready.ssrc after }, effects) ∧
      stream.Refreshed after ∧
      ((∀ effect ∈ effects, ∃ sound, effect = .enqueue ready.stream sound) ∨
        ready.video = true ∧
          ∃ picture, effects = router.fire ready.stream (.onVideoFrame ready.ssrc picture)) := by
  rw [decode, found]
  dsimp only
  rw [if_neg (not_not_intro number)]
  rw [Stream.HasDecoder, video] at has
  cases kind : ready.video with
  | true =>
      rw [kind, if_pos rfl] at has
      rw [if_pos rfl]
      rcases Option.isSome_iff_exists.mp has with ⟨vdec, holds⟩
      rw [holds]
      dsimp only
      refine ⟨{ stream with vdec := some (codecs.decodeVideo vdec frame).1 }, _, rfl,
        ⟨rfl, rfl, rfl, fun _ => ?_⟩, ?_⟩
      · simp [Stream.HasDecoder, video, kind]
      · split
        · rename_i picture _
          exact .inr ⟨rfl, picture, rfl⟩
        · left
          simp
  | false =>
      rw [kind, if_neg Bool.false_ne_true] at has
      rw [if_neg Bool.false_ne_true]
      rcases Option.isSome_iff_exists.mp has with ⟨adec, holds⟩
      rw [holds]
      dsimp only
      refine ⟨{ stream with adec := some (codecs.decodeAudio adec frame).1 }, _, rfl,
        ⟨rfl, rfl, rfl, fun _ => ?_⟩, .inl ?_⟩
      · simp [Stream.HasDecoder, video, kind]
      · split
        · rename_i sound _
          split
          · intro effect member
            exact ⟨sound, List.mem_singleton.mp member⟩
          · simp
        · simp

theorem step_change {effects : List (Effect codecs)} {router : ReceiveRouter codecs}
    (registered : Registered effects router) (event : Event) :
    Change router (step router event).1 (step router event).2 := by
  cases event with
  | pushPacket packet arrival =>
      rw [step, pushPacket]
      cases found : router.streams.find? packet.ssrc with
      | none => exact .created found
      | some stream => exact .refreshed found (stream.refreshed_feed packet arrival)
  | tick now =>
      rw [step, tick]
      dsimp only
      split
      · rename_i returned
        exact .began returned
      · exact .idle
  | proceed =>
      rw [step, proceed]
      split
      · rename_i ready rest removals working
        split
        · rename_i announces
          rw [Bool.and_eq_true] at announces
          exact .announced working announces.1 announces.2
        · rename_i quiet
          have told : ready.video = true → ready.announce = false := by
            intro video
            simpa [video] using quiet
          split
          · rename_i finished
            exact .finished working finished told
          · rename_i frame frames pulled
            have inside : ready ∈ router.working.ready := by
              rw [working]
              exact List.mem_cons_self
            rcases registered.ready ready inside with ⟨stream, found, number, video⟩
            have has := registered.decoder _ _ found
            rcases @decode_cases codecs
              { router with working := ⟨{ ready with frames } :: rest, removals⟩ } ready stream
              found number video has frame with ⟨after, effects, decoded, same, heard⟩
            rw [decoded]
            exact .decoded working pulled told found same heard
      · rename_i removal rest working
        exact .removed working
      · exact .idle

/-! ## The streams over a run -/

theorem mem_fire {router : ReceiveRouter codecs} {stream : Nat} {callback : Callback codecs}
    {effect : Effect codecs} (member : effect ∈ router.fire stream callback) :
    effect = .fired stream callback := by
  rw [fire] at member
  split at member
  · exact List.mem_singleton.mp member
  · cases member

theorem Registered.find?_store {effects : List (Effect codecs)} {router : ReceiveRouter codecs}
    (registered : Registered effects router) (ssrc : BitVec 32) (stream : Stream codecs)
    (other : BitVec 32) :
    (router.streams.store ssrc stream).find? other =
      if other = ssrc then some stream else router.streams.find? other :=
  OrderedMap.find?_store registered.sorted ssrcKeyLess_strict stream other

/-- Effects that create nothing, use no lost pointer, and fire callbacks only for
streams created as video. -/
theorem Registered.extend {effects more : List (Effect codecs)} {router : ReceiveRouter codecs}
    (registered : Registered effects router)
    (harmless : ∀ effect ∈ more, (∃ stream sound, effect = .enqueue stream sound) ∨
      ∃ stream callback, effect = .fired stream callback ∧
        .created stream callback.ssrc true ∈ effects) :
    Registered (effects ++ more) router := by
  have earlier : ∀ {number ssrc video}, .created number ssrc video ∈ effects ++ more →
      .created number ssrc video ∈ effects := by
    intro number ssrc video member
    rcases List.mem_append.mp member with before | now
    · exact before
    · rcases harmless _ now with ⟨_, _, same⟩ | ⟨_, _, same, _⟩ <;> cases same
  refine ⟨registered.sorted, ?_, registered.decoder, ?_, ?_, registered.ready, ?_, ?_, ?_⟩
  · intro ssrc stream found
    exact List.mem_append_left _ (registered.created ssrc stream found)
  · intro number ssrc video created
    exact registered.numbered number ssrc video (earlier created)
  · intro number ssrc video other kind created again
    exact registered.once number ssrc video other kind (earlier created) (earlier again)
  · intro removal member
    exact List.mem_append_left _ (registered.removed removal member)
  · intro stream callback fired
    apply List.mem_append_left
    rcases List.mem_append.mp fired with before | now
    · exact registered.fired stream callback before
    · rcases harmless _ now with ⟨_, _, same⟩ | ⟨_, _, same, created⟩
      · cases same
      · cases same
        exact created
  · intro stream dangling
    rcases List.mem_append.mp dangling with before | now
    · exact registered.pointers stream before
    · rcases harmless _ now with ⟨_, _, same⟩ | ⟨_, _, same, _⟩ <;> cases same

/-- A stream of the map is replaced by itself, moved on. -/
theorem Registered.refresh {effects : List (Effect codecs)} {router : ReceiveRouter codecs}
    {ssrc : BitVec 32} {before after : Stream codecs} (registered : Registered effects router)
    (found : router.streams.find? ssrc = some before) (same : before.Refreshed after) :
    Registered effects { router with streams := router.streams.store ssrc after } := by
  have lookup := registered.find?_store ssrc after
  refine ⟨registered.sorted.store (ssrcKeyLess_strict _) after, ?_, ?_, registered.numbered,
    registered.once, ?_, registered.removed, registered.fired, registered.pointers⟩
  · intro other stream present
    rw [lookup] at present
    split at present
    · rename_i equal
      cases present
      rw [same.number, same.video, equal]
      exact registered.created ssrc before found
    · exact registered.created other stream present
  · intro other stream present
    rw [lookup] at present
    split at present
    · cases present
      exact same.decoder (registered.decoder ssrc before found)
    · exact registered.decoder other stream present
  · intro ready member
    rcases registered.ready ready member with ⟨stream, present, number, video⟩
    rw [lookup]
    by_cases equal : ready.ssrc = ssrc
    · rw [if_pos equal]
      rw [equal, found] at present
      cases present
      exact ⟨after, rfl, same.number.trans number, same.video.trans video⟩
    · rw [if_neg equal]
      exact ⟨stream, present, number, video⟩

/-- What is left of a tick's work points where the tick did. -/
theorem Registered.shrink {effects : List (Effect codecs)} {router : ReceiveRouter codecs}
    {working : Tick} (registered : Registered effects router)
    (ready : ∀ ready ∈ working.ready, ∃ earlier ∈ router.working.ready,
      earlier.ssrc = ready.ssrc ∧ earlier.stream = ready.stream ∧ earlier.video = ready.video)
    (removed : working.removedVideo ⊆ router.working.removedVideo) :
    Registered effects { router with working } := by
  refine ⟨registered.sorted, registered.created, registered.decoder, registered.numbered,
    registered.once, ?_, ?_, registered.fired, registered.pointers⟩
  · intro left member
    rcases ready left member with ⟨earlier, inside, ssrc, stream, video⟩
    rw [← ssrc, ← stream, ← video]
    exact registered.ready earlier inside
  · intro removal member
    exact registered.removed removal (removed member)

/-- The stream a tick announces, or decodes video of, was created as video. -/
theorem Registered.created_ready {effects : List (Effect codecs)} {router : ReceiveRouter codecs}
    {ready : Ready} (registered : Registered effects router)
    (inside : ready ∈ router.working.ready) (video : ready.video = true) :
    .created ready.stream ready.ssrc true ∈ effects := by
  rcases registered.ready ready inside with ⟨stream, found, number, kind⟩
  have created := registered.created _ _ found
  rw [number, kind, video] at created
  exact created

/-- The work on the first stream goes on. -/
theorem Registered.advance_head {effects : List (Effect codecs)} {router : ReceiveRouter codecs}
    {ready : Ready} {rest : List Ready} {removals : List Removal}
    (registered : Registered effects router) (working : router.working = ⟨ready :: rest, removals⟩)
    (later : Ready) (ssrc : ready.ssrc = later.ssrc) (stream : ready.stream = later.stream)
    (video : ready.video = later.video) :
    Registered effects { router with working := ⟨later :: rest, removals⟩ } := by
  apply registered.shrink
  · intro left member
    rw [working]
    rcases List.mem_cons.mp member with same | other
    · rw [same]
      exact ⟨ready, List.mem_cons_self, ssrc, stream, video⟩
    · exact ⟨left, List.mem_cons_of_mem _ other, rfl, rfl, rfl⟩
  · rw [working]
    exact List.Subset.refl _

theorem Registered.create {effects : List (Effect codecs)} {router : ReceiveRouter codecs}
    {packet : RtpPacket} (registered : Registered effects router)
    (absent : router.streams.find? packet.ssrc = none) (arrival : SteadyTime) :
    Registered (effects ++ [.created router.allocated packet.ssrc (router.newStream packet).video])
      { router with
        streams := router.streams.store packet.ssrc ((router.newStream packet).feed packet arrival)
        allocated := router.allocated + 1 } := by
  have lookup := registered.find?_store packet.ssrc ((router.newStream packet).feed packet arrival)
  have fresh : ∀ {number ssrc video}, .created number ssrc video ∈
      effects ++ [.created router.allocated packet.ssrc (router.newStream packet).video] →
        .created number ssrc video ∈ effects ∧ number < router.allocated ∨
          number = router.allocated ∧ ssrc = packet.ssrc ∧
            video = (router.newStream packet).video := by
    intro number ssrc video member
    rcases List.mem_append.mp member with before | now
    · exact .inl ⟨before, registered.numbered _ _ _ before⟩
    · cases List.mem_singleton.mp now
      exact .inr ⟨rfl, rfl, rfl⟩
  refine ⟨registered.sorted.store (ssrcKeyLess_strict _) _, ?_, ?_, ?_, ?_, ?_, ?_, ?_, ?_⟩
  · intro ssrc stream present
    rw [lookup] at present
    split at present
    · rename_i equal
      cases present
      rw [equal]
      exact List.mem_append_right _ List.mem_cons_self
    · exact List.mem_append_left _ (registered.created ssrc stream present)
  · intro ssrc stream present
    rw [lookup] at present
    split at present
    · cases present
      apply ((router.newStream packet).refreshed_feed packet arrival).decoder
      rw [Stream.HasDecoder, newStream]
      cases packet.payloadType == router.config.audioPayloadType <;> rfl
    · exact registered.decoder ssrc stream present
  · intro number ssrc video created
    dsimp only
    rcases fresh created with ⟨_, below⟩ | ⟨same, _⟩ <;> omega
  · intro number ssrc video other kind created again
    rcases fresh created with ⟨before, below⟩ | ⟨last, named, shown⟩
    · rcases fresh again with ⟨sooner, _⟩ | ⟨same, _⟩
      · exact registered.once number ssrc video other kind before sooner
      · omega
    · rcases fresh again with ⟨_, below⟩ | ⟨_, otherNamed, otherShown⟩
      · omega
      · exact ⟨otherNamed.trans named.symm, otherShown.trans shown.symm⟩
  · intro ready member
    rcases registered.ready ready member with ⟨stream, present, number, video⟩
    rw [lookup]
    by_cases equal : ready.ssrc = packet.ssrc
    · rw [equal, absent] at present
      cases present
    · rw [if_neg equal]
      exact ⟨stream, present, number, video⟩
  · intro removal member
    exact List.mem_append_left _ (registered.removed removal member)
  · intro stream callback fired
    apply List.mem_append_left
    rcases List.mem_append.mp fired with before | now
    · exact registered.fired stream callback before
    · cases List.mem_singleton.mp now
  · intro stream dangling
    rcases List.mem_append.mp dangling with before | now
    · exact registered.pointers stream before
    · cases List.mem_singleton.mp now

/-- A stream that a tick keeps is one of those before it. -/
theorem find?_kept_from {router : ReceiveRouter codecs} (sorted : router.streams.Sorted)
    {now : SteadyTime} {ssrc : BitVec 32} {stream : Stream codecs}
    (present : (router.streams.leave
      (kept router.config now router.streams.entries)).find? ssrc = some stream) :
    ∃ before, router.streams.find? ssrc = some before ∧ stream.number = before.number ∧
      stream.video = before.video ∧ (before.HasDecoder → stream.HasDecoder) := by
  rw [find?_kept sorted, Option.bind_eq_some_iff] at present
  rcases present with ⟨before, found, visited⟩
  refine ⟨before, found, ?_⟩
  rcases visit_cases router.config now ssrc before with reaped | ⟨frames, jitter, polled⟩
  · rw [reaped] at visited
    cases visited
  · rw [polled] at visited
    cases visited
    exact ⟨rfl, rfl, fun has => has⟩

/-- The work of a tick is on streams that it keeps. -/
theorem ready_of_sweep {router : ReceiveRouter codecs} (sorted : router.streams.Sorted)
    {now : SteadyTime} {ready : Ready}
    (member : ready ∈ (sweep router.config now router.streams.entries).ready) :
    ∃ stream, (router.streams.leave
        (kept router.config now router.streams.entries)).find? ready.ssrc = some stream ∧
      stream.number = ready.stream ∧ stream.video = ready.video := by
  simp only [sweep, List.mem_flatMap] at member
  rcases member with ⟨⟨ssrc, before⟩, inside, pulled⟩
  have found := (mem_entries_iff sorted).mpr inside
  rcases visit_cases router.config now ssrc before with reaped | ⟨frames, jitter, polled⟩
  · rw [reaped] at pulled
    cases pulled
  · rw [polled] at pulled
    dsimp only at pulled
    split at pulled
    · cases pulled
    · cases List.mem_singleton.mp pulled
      dsimp only
      rw [find?_kept sorted, found, Option.bind_some, polled]
      exact ⟨_, rfl, rfl, rfl⟩

/-- A removal that a tick will report is that of a video stream. -/
theorem removed_of_sweep {router : ReceiveRouter codecs} (sorted : router.streams.Sorted)
    {now : SteadyTime} {removal : Removal}
    (member : removal ∈ (sweep router.config now router.streams.entries).removedVideo) :
    ∃ before, router.streams.find? removal.ssrc = some before ∧
      before.number = removal.stream ∧ before.video = true := by
  simp only [sweep, List.mem_flatMap] at member
  rcases member with ⟨⟨ssrc, before⟩, inside, reapedVideo⟩
  have found := (mem_entries_iff sorted).mpr inside
  rcases visit_cases router.config now ssrc before with reaped | ⟨frames, jitter, polled⟩
  · rw [reaped] at reapedVideo
    dsimp only at reapedVideo
    split at reapedVideo
    · rename_i showing
      rw [Bool.and_eq_true] at showing
      cases List.mem_singleton.mp reapedVideo
      exact ⟨before, found, rfl, showing.1⟩
    · cases reapedVideo
  · rw [polled] at reapedVideo
    cases reapedVideo

theorem Registered.begin {effects : List (Effect codecs)} {router : ReceiveRouter codecs}
    (registered : Registered effects router) (now : SteadyTime) :
    Registered effects
      { router with
        streams := router.streams.leave (kept router.config now router.streams.entries)
        working := sweep router.config now router.streams.entries } := by
  have sorted := registered.sorted
  refine ⟨sorted_kept sorted, ?_, ?_, registered.numbered, registered.once,
    fun ready member => ready_of_sweep sorted member, ?_, registered.fired, registered.pointers⟩
  · intro ssrc stream present
    rcases find?_kept_from sorted present with ⟨before, found, number, video, _⟩
    rw [number, video]
    exact registered.created ssrc before found
  · intro ssrc stream present
    rcases find?_kept_from sorted present with ⟨before, found, _, _, has⟩
    exact has (registered.decoder ssrc before found)
  · intro removal member
    rcases removed_of_sweep sorted member with ⟨before, found, number, video⟩
    have created := registered.created removal.ssrc before found
    rw [number, video] at created
    exact created

theorem Registered.change {effects more : List (Effect codecs)}
    {router next : ReceiveRouter codecs} (registered : Registered effects router)
    (change : Change router next more) : Registered (effects ++ more) next := by
  cases change with
  | created absent => exact registered.create absent _
  | refreshed found same =>
      rw [List.append_nil]
      exact registered.refresh found same
  | began returned =>
      rw [List.append_nil]
      exact registered.begin _
  | @announced ready rest removals working video announce =>
      have inside : ready ∈ router.working.ready := by
        rw [working]
        exact List.mem_cons_self
      have advanced :=
        registered.advance_head working { ready with announce := false } rfl rfl rfl
      apply advanced.extend
      intro effect member
      exact .inr ⟨_, _, mem_fire member, registered.created_ready inside video⟩
  | @finished ready rest removals working _ _ =>
      rw [List.append_nil]
      apply registered.shrink
      · intro left member
        refine ⟨left, ?_, rfl, rfl, rfl⟩
        rw [working]
        exact List.mem_cons_of_mem _ member
      · rw [working]
        exact List.Subset.refl _
  | @decoded ready frame frames rest removals before after _ working pulled told found same heard =>
      have inside : ready ∈ router.working.ready := by
        rw [working]
        exact List.mem_cons_self
      have advanced :=
        (registered.refresh found same).advance_head working { ready with frames } rfl rfl rfl
      apply advanced.extend
      intro effect member
      rcases heard with silent | ⟨video, picture, fires⟩
      · exact .inl ⟨_, silent effect member⟩
      · rw [fires] at member
        exact .inr ⟨_, _, mem_fire member, registered.created_ready inside video⟩
  | @removed removal rest working =>
      have inside : removal ∈ router.working.removedVideo := by
        rw [working]
        exact List.mem_cons_self
      have shrunk : Registered effects { router with working := ⟨[], rest⟩ } := by
        apply registered.shrink
        · intro left member
          cases member
        · rw [working]
          exact List.subset_cons_self _ _
      apply shrunk.extend
      intro effect member
      exact .inr ⟨_, _, mem_fire member, registered.removed removal inside⟩
  | idle =>
      rw [List.append_nil]
      exact registered

end ReceiveRouter

end Vela
