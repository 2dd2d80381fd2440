import Vela.Foundation.Bracket
import Vela.Media.ReceiveRouterSteps

/-! # The callbacks of the receive router

For every SSRC the callbacks form sessions: the stream is announced, delivers
frames and is removed, and only then is a later stream announced. A tick decides
its callbacks under the lock; what it has still to fire carries the protocol from
where the callbacks stand to where the streams do. -/

namespace Vela

open Foundation Bracket

namespace ReceiveRouter

variable {codecs : Codecs}

/-! ## Notices -/

/-- A callback as a notice of the stream it is fired for. -/
def Callback.notice (stream : Nat) : Callback codecs → Notice codecs.VideoFrame
  | .onVideoFrame _ frame => .item stream frame
  | .onVideoStreamAdded _ => .opened stream
  | .onVideoStreamRemoved _ => .closed stream

def Effect.noticeFor (ssrc : BitVec 32) : Effect codecs → Option (Notice codecs.VideoFrame)
  | .fired stream callback =>
      if callback.ssrc = ssrc then some (callback.notice stream) else none
  | _ => none

/-- The callbacks fired for an SSRC. -/
def firedFor (ssrc : BitVec 32) (effects : List (Effect codecs)) :
    List (Notice codecs.VideoFrame) :=
  effects.filterMap (Effect.noticeFor ssrc)

/-- The notices that reach a callback that is set. -/
def Callbacks.installed (callbacks : Callbacks) : Notice codecs.VideoFrame → Bool
  | .item _ _ => callbacks.onVideoFrame
  | .opened _ => callbacks.onVideoStreamAdded
  | .closed _ => callbacks.onVideoStreamRemoved

/-- What a tick has still to fire for one stream, were every frame decoded. -/
def Ready.notices (ready : Ready) : List (Notice EncodedFrame) :=
  if ready.video then
    (if ready.announce then [.opened ready.stream] else []) ++
      ready.frames.map (.item ready.stream)
  else []

def Tick.noticesFor (tick : Tick) (ssrc : BitVec 32) : List (Notice EncodedFrame) :=
  (tick.ready.flatMap fun ready => if ready.ssrc = ssrc then ready.notices else []) ++
    tick.removedVideo.flatMap fun removal =>
      if removal.ssrc = ssrc then [.closed removal.stream] else []

/-- Where the protocol stands when everything decided has been fired: in the
session of the stream in the map if that one was announced, between sessions
otherwise. -/
def Stands (phase : Phase) (allocated : Nat) : Option (Stream codecs) → Prop
  | none => phase.current = none ∧ phase.floor ≤ allocated
  | some stream =>
      if stream.video && stream.announced then
        phase.current = some stream.number ∧ phase.floor = stream.number + 1
      else phase.current = none ∧ phase.floor ≤ stream.number

/-! ## A tick, under the lock -/

/-- One round carries the protocol from where the stream stands before to where
it stands after. -/
theorem visit_stands {config : Config} {now : SteadyTime} {ssrc : BitVec 32}
    {stream : Stream codecs} {phase : Phase} {allocated : Nat}
    (stands : Stands phase allocated (some stream)) (numbered : stream.number < allocated) :
    ∃ after, phase.follow ((visit config now ssrc stream).2.noticesFor ssrc) = some after ∧
      Stands after allocated (visit config now ssrc stream).1 := by
  simp only [Stands] at stands
  rcases visit_cases config now ssrc stream with reaped | ⟨frames, jitter, polled⟩
  · rw [reaped]
    split at stands
    · rename_i showing
      refine ⟨⟨phase.floor, none⟩, ?_, rfl, ?_⟩
      · simp [Tick.noticesFor, showing, Phase.follow, Phase.advance, stands.1]
      · dsimp only
        omega
    · rename_i hidden
      refine ⟨phase, ?_, stands.1, by omega⟩
      simp [Tick.noticesFor, hidden, Phase.follow]
  · rw [polled]
    cases video : stream.video with
    | false =>
        rw [video] at stands
        refine ⟨phase, ?_, ?_⟩
        · cases frames <;> simp [Tick.noticesFor, Ready.notices, Phase.follow]
        · simpa [Stands, video] using stands
    | true =>
        cases frames with
        | nil => exact ⟨phase, rfl, by simpa [Stands, video] using stands⟩
        | cons frame frames =>
            cases announced : stream.announced with
            | true =>
                have opened : phase.current = some stream.number ∧
                    phase.floor = stream.number + 1 := by simpa [video, announced] using stands
                refine ⟨phase, ?_, by simpa [Stands, video] using opened⟩
                have followed := Phase.follow_items opened.1 (frame :: frames)
                simpa [Tick.noticesFor, Ready.notices] using followed
            | false =>
                have idle : phase.current = none ∧ phase.floor ≤ stream.number := by
                  simpa [video, announced] using stands
                refine ⟨⟨stream.number + 1, some stream.number⟩, ?_, by simp [Stands]⟩
                have followed := Phase.follow_items
                  (rfl : (⟨stream.number + 1, some stream.number⟩ : Phase).current =
                    some stream.number) (frame :: frames)
                have opens : phase.advance (.opened stream.number : Notice EncodedFrame) =
                    some ⟨stream.number + 1, some stream.number⟩ := if_pos idle
                simpa [Tick.noticesFor, Ready.notices, Phase.follow, opens] using followed

section Sweep

variable {config : Config} {now : SteadyTime} {ssrc : BitVec 32}
variable {streams : OrderedMap (BitVec 32) (Stream codecs) ssrcKeyLess}

theorem visit_silent {other : BitVec 32} (different : other ≠ ssrc) (stream : Stream codecs) :
    (visit config now ssrc stream).2.noticesFor other = [] := by
  rcases visit_cases config now ssrc stream with reaped | ⟨frames, jitter, polled⟩
  · rw [reaped]
    simp only [Tick.noticesFor, List.flatMap_nil, List.nil_append]
    split <;> simp [different.symm]
  · rw [polled]
    simp only [Tick.noticesFor, List.flatMap_nil, List.append_nil]
    split <;> simp [different.symm]

/-- What a tick owes an SSRC comes from the one stream of that SSRC. -/
theorem sweep_noticesFor (sorted : streams.Sorted) (ssrc : BitVec 32) :
    (sweep config now streams.entries).noticesFor ssrc =
      match streams.find? ssrc with
      | none => []
      | some stream => (visit config now ssrc stream).2.noticesFor ssrc := by
  simp only [Tick.noticesFor, sweep, List.flatMap_assoc]
  have silent : ∀ entry ∈ streams.entries, entry.1 ≠ ssrc →
      ((visit config now entry.1 entry.2).2.ready.flatMap
          fun ready => if ready.ssrc = ssrc then ready.notices else []) = [] ∧
        ((visit config now entry.1 entry.2).2.removedVideo.flatMap
          fun removal => if removal.ssrc = ssrc then [.closed removal.stream] else []) =
            ([] : List (Notice EncodedFrame)) := by
    intro entry _ different
    exact List.append_eq_nil_iff.mp (visit_silent different.symm entry.2)
  cases found : streams.find? ssrc with
  | none =>
      have absent := (OrderedMap.find?_eq_none_iff sorted (ssrcKeyLess_strict _)).mp found
      have others : ∀ entry ∈ streams.entries, entry.1 ≠ ssrc := by
        intro entry inside same
        exact absent (same ▸ OrderedMap.mem_keys.mpr ⟨entry.2, inside⟩)
      apply List.append_eq_nil_iff.mpr
      constructor
      · apply List.flatMap_eq_nil_iff.mpr
        intro entry inside
        exact (silent entry inside (others entry inside)).1
      · apply List.flatMap_eq_nil_iff.mpr
        intro entry inside
        exact (silent entry inside (others entry inside)).2
  | some stream =>
      have member := (mem_entries_iff sorted).mp found
      dsimp only
      rw [sorted.flatMap_entries (ssrcKeyLess_strict _) member _ fun entry inside different =>
          (silent entry inside different).1,
        sorted.flatMap_entries (ssrcKeyLess_strict _) member _ fun entry inside different =>
          (silent entry inside different).2]

end Sweep

/-! ## The protocol over a run -/

theorem firedFor_append (ssrc : BitVec 32) (effects more : List (Effect codecs)) :
    firedFor ssrc (effects ++ more) = firedFor ssrc effects ++ firedFor ssrc more :=
  List.filterMap_append

theorem firedFor_fire (router : ReceiveRouter codecs) (ssrc : BitVec 32) (stream : Nat)
    (callback : Callback codecs) :
    firedFor ssrc (router.fire stream callback) =
      (if callback.ssrc = ssrc then [callback.notice stream] else []).filter
        router.callbacks.installed := by
  have handled : router.callbacks.handles callback =
      router.callbacks.installed (callback.notice stream) := by
    cases callback <;> rfl
  rw [fire, handled]
  by_cases same : callback.ssrc = ssrc
  · cases set : router.callbacks.installed (callback.notice stream) <;>
      simp [firedFor, Effect.noticeFor, same, set]
  · split <;> simp [firedFor, Effect.noticeFor, same]

/-- The callbacks fired for an SSRC can be followed, and what the tick has still to
fire leads on to where the streams stand. -/
def Follows (ssrc : BitVec 32) (effects : List (Effect codecs)) (router : ReceiveRouter codecs) :
    Prop :=
  ∃ notices between after,
    firedFor ssrc effects = notices.filter router.callbacks.installed ∧
    Phase.start.follow notices = some between ∧
    between.follow (router.working.noticesFor ssrc) = some after ∧
    Stands after router.allocated (router.streams.find? ssrc)

/-- One more step: its notices continue what was fired, and are taken off what the
tick has still to fire. -/
theorem Follows.carry {ssrc : BitVec 32} {effects more : List (Effect codecs)}
    {router next : ReceiveRouter codecs} {notices : List (Notice codecs.VideoFrame)}
    (follows : Follows ssrc effects router) (callbacks : next.callbacks = router.callbacks)
    (fires : firedFor ssrc more = notices.filter router.callbacks.installed)
    (carried : ∀ between after : Phase,
      between.follow (router.working.noticesFor ssrc) = some after →
      Stands after router.allocated (router.streams.find? ssrc) →
      ∃ reached last : Phase, between.follow notices = some reached ∧
        reached.follow (next.working.noticesFor ssrc) = some last ∧
        Stands last next.allocated (next.streams.find? ssrc)) :
    Follows ssrc (effects ++ more) next := by
  rcases follows with ⟨earlier, between, after, fired, followed, pending, stands⟩
  rcases carried between after pending stands with ⟨reached, last, goesOn, remaining, stays⟩
  refine ⟨earlier ++ notices, reached, last, ?_, ?_, remaining, stays⟩
  · rw [firedFor_append, fired, fires, callbacks, List.filter_append]
  · exact Phase.follow_append_eq_some.mpr ⟨between, followed, goesOn⟩

/-- One more step that fires nothing for the SSRC. -/
theorem Follows.quiet {ssrc : BitVec 32} {effects more : List (Effect codecs)}
    {router next : ReceiveRouter codecs} (follows : Follows ssrc effects router)
    (callbacks : next.callbacks = router.callbacks) (silent : firedFor ssrc more = [])
    (carried : ∀ between after : Phase,
      between.follow (router.working.noticesFor ssrc) = some after →
      Stands after router.allocated (router.streams.find? ssrc) →
      ∃ last, between.follow (next.working.noticesFor ssrc) = some last ∧
        Stands last next.allocated (next.streams.find? ssrc)) :
    Follows ssrc (effects ++ more) next := by
  apply @Follows.carry codecs ssrc effects more router next [] follows callbacks silent
  intro between after pending stands
  rcases carried between after pending stands with ⟨last, remaining, stays⟩
  exact ⟨between, last, rfl, remaining, stays⟩

theorem noticesFor_cons (ready : Ready) (rest : List Ready) (removals : List Removal)
    (ssrc : BitVec 32) :
    Tick.noticesFor ⟨ready :: rest, removals⟩ ssrc =
      (if ready.ssrc = ssrc then ready.notices else []) ++
        Tick.noticesFor ⟨rest, removals⟩ ssrc := by
  simp [Tick.noticesFor]

theorem stands_refreshed {phase : Phase} {allocated : Nat} {before after : Stream codecs}
    (same : before.Refreshed after) (stands : Stands phase allocated (some before)) :
    Stands phase allocated (some after) := by
  simpa [Stands, same.number, same.video, same.announced] using stands

/-- The stream of an SSRC moves on, and nothing else. -/
theorem stands_store {effects : List (Effect codecs)} {router : ReceiveRouter codecs}
    {ssrc other : BitVec 32} {before after : Stream codecs} {phase : Phase}
    (registered : Registered effects router) (found : router.streams.find? ssrc = some before)
    (same : before.Refreshed after)
    (stands : Stands phase router.allocated (router.streams.find? other)) :
    Stands phase router.allocated ((router.streams.store ssrc after).find? other) := by
  rw [registered.find?_store]
  split
  · rename_i equal
    rw [equal, found] at stands
    exact stands_refreshed same stands
  · exact stands

/-- A frame of a video stream is the next notice that a tick has to fire. -/
theorem follow_decoded {ssrc : BitVec 32} {ready : Ready} {frame : EncodedFrame}
    {frames : List EncodedFrame} {rest : List Ready} {removals : List Removal}
    {between after : Phase} (pulled : ready.frames = frame :: frames)
    (told : ready.video = true → ready.announce = false)
    (pending : between.follow (Tick.noticesFor ⟨ready :: rest, removals⟩ ssrc) = some after) :
    (ready.video = true → ready.ssrc = ssrc → between.current = some ready.stream) ∧
      between.follow (Tick.noticesFor ⟨{ ready with frames } :: rest, removals⟩ ssrc) =
        some after := by
  rw [noticesFor_cons] at pending
  rw [noticesFor_cons]
  by_cases own : ready.ssrc = ssrc
  · cases video : ready.video with
    | false =>
        simp only [own, if_true, Ready.notices, video, Bool.false_eq_true, if_false,
          false_implies, true_and] at pending ⊢
        exact pending
    | true =>
        simp only [own, if_true, Ready.notices, video, told video, Bool.false_eq_true, if_false,
          pulled, List.map_cons, List.nil_append, List.cons_append, Phase.follow,
          Phase.advance] at pending ⊢
        split at pending
        · rename_i opened
          exact ⟨fun _ _ => opened, pending⟩
        · cases pending
  · simp only [own, if_false] at pending ⊢
    exact ⟨fun _ impossible => absurd impossible id, pending⟩

/-- The announcement goes out of what a tick has still to fire. -/
theorem follow_announced {ssrc : BitVec 32} {ready : Ready} {rest : List Ready}
    {removals : List Removal} {between after : Phase} (video : ready.video = true)
    (announce : ready.announce = true)
    (pending : between.follow (Tick.noticesFor ⟨ready :: rest, removals⟩ ssrc) = some after) :
    ∃ reached,
      between.follow (if ready.ssrc = ssrc then
        [(.opened ready.stream : Notice codecs.VideoFrame)] else []) = some reached ∧
      reached.follow (Tick.noticesFor ⟨{ ready with announce := false } :: rest, removals⟩ ssrc) =
        some after := by
  rw [noticesFor_cons] at pending
  rw [noticesFor_cons]
  by_cases same : ready.ssrc = ssrc
  · simp only [same, if_true, Ready.notices, video, announce, List.cons_append, List.nil_append,
      Phase.follow, Option.bind_eq_some_iff] at pending ⊢
    rcases pending with ⟨reached, opens, remaining⟩
    exact ⟨reached, ⟨reached, opens, rfl⟩, remaining⟩
  · simp only [same, if_false] at pending ⊢
    exact ⟨between, rfl, pending⟩

/-- The removal goes out of what a tick has still to fire. -/
theorem follow_removed {ssrc : BitVec 32} {removal : Removal} {rest : List Removal}
    {between after : Phase}
    (pending : between.follow (Tick.noticesFor ⟨[], removal :: rest⟩ ssrc) = some after) :
    ∃ reached,
      between.follow (if removal.ssrc = ssrc then
        [(.closed removal.stream : Notice codecs.VideoFrame)] else []) = some reached ∧
      reached.follow (Tick.noticesFor ⟨[], rest⟩ ssrc) = some after := by
  simp only [Tick.noticesFor, List.flatMap_nil, List.nil_append, List.flatMap_cons] at pending ⊢
  by_cases same : removal.ssrc = ssrc
  · simp only [same, if_true, List.cons_append, List.nil_append, Phase.follow,
      Option.bind_eq_some_iff] at pending ⊢
    rcases pending with ⟨reached, closes, remaining⟩
    exact ⟨reached, ⟨reached, closes, rfl⟩, remaining⟩
  · simp only [same, if_false, List.nil_append] at pending ⊢
    exact ⟨between, rfl, pending⟩

/-- A new stream has announced nothing. -/
theorem stands_created {effects : List (Effect codecs)} {router : ReceiveRouter codecs}
    {packet : RtpPacket} {ssrc : BitVec 32} {phase : Phase}
    (registered : Registered effects router) (absent : router.streams.find? packet.ssrc = none)
    (arrival : SteadyTime) (stands : Stands phase router.allocated (router.streams.find? ssrc)) :
    Stands phase (router.allocated + 1)
      ((router.streams.store packet.ssrc ((router.newStream packet).feed packet arrival)).find?
        ssrc) := by
  rw [registered.find?_store]
  split
  · rename_i equal
    rw [equal, absent] at stands
    simpa [Stands, newStream, Stream.feed] using stands
  · cases found : router.streams.find? ssrc with
    | none =>
        rw [found] at stands
        exact ⟨stands.1, Nat.le_succ_of_le stands.2⟩
    | some stream =>
        rw [found] at stands
        exact stands

/-- A tick begins: each stream's round carries it on. -/
theorem stands_began {effects : List (Effect codecs)} {router : ReceiveRouter codecs}
    {ssrc : BitVec 32} {phase : Phase} (registered : Registered effects router) (now : SteadyTime)
    (stands : Stands phase router.allocated (router.streams.find? ssrc)) :
    ∃ last, phase.follow ((sweep router.config now router.streams.entries).noticesFor ssrc) =
        some last ∧
      Stands last router.allocated
        ((router.streams.leave (kept router.config now router.streams.entries)).find? ssrc) := by
  rw [sweep_noticesFor registered.sorted, find?_kept registered.sorted]
  cases found : router.streams.find? ssrc with
  | none =>
      rw [found] at stands
      exact ⟨phase, rfl, stands⟩
  | some stream =>
      rw [found] at stands
      have numbered := registered.numbered _ _ _ (registered.created ssrc stream found)
      rcases visit_stands stands numbered with ⟨last, followed, stays⟩
      exact ⟨last, followed, stays⟩

theorem Follows.change {ssrc : BitVec 32} {effects more : List (Effect codecs)}
    {router next : ReceiveRouter codecs} (registered : Registered effects router)
    (change : Change router next more) (follows : Follows ssrc effects router) :
    Follows ssrc (effects ++ more) next := by
  cases change with
  | @created packet arrival absent =>
      refine follows.quiet rfl rfl ?_
      intro between after pending stands
      exact ⟨after, pending, stands_created registered absent arrival stands⟩
  | refreshed found same =>
      refine follows.quiet rfl rfl ?_
      intro between after pending stands
      exact ⟨after, pending, stands_store registered found same stands⟩
  | @began now returned =>
      refine follows.quiet rfl rfl ?_
      intro between after pending stands
      rw [returned] at pending
      cases pending
      exact stands_began registered now stands
  | @announced ready rest removals working video announce =>
      refine follows.carry rfl (firedFor_fire _ _ _ _) ?_
      intro between after pending stands
      rw [working] at pending
      rcases follow_announced video announce pending with ⟨reached, opens, remaining⟩
      exact ⟨reached, after, opens, remaining, stands⟩
  | @finished ready rest removals working finished told =>
      have nothing : ready.notices = [] := by
        rw [Ready.notices, finished]
        split
        · rename_i video
          simp [told video]
        · rfl
      refine follows.quiet rfl rfl ?_
      intro between after pending stands
      rw [working, noticesFor_cons, nothing, ite_self, List.nil_append] at pending
      exact ⟨after, pending, stands⟩
  | @decoded ready frame frames rest removals before stays _ working pulled told found same heard =>
      have stood : ∀ {phase}, Stands phase router.allocated (router.streams.find? ssrc) →
          Stands phase router.allocated ((router.streams.store ready.ssrc stays).find? ssrc) :=
        fun stands => stands_store registered found same stands
      rcases heard with silent | ⟨video, picture, fires⟩
      · have none : firedFor ssrc more = [] := by
          apply List.filterMap_eq_nil_iff.mpr
          intro effect member
          rcases silent effect member with ⟨sound, equal⟩
          rw [equal]
          rfl
        refine follows.quiet rfl none ?_
        intro between after pending stands
        rw [working] at pending
        exact ⟨after, (follow_decoded pulled told pending).2, stood stands⟩
      · rw [fires]
        refine follows.carry rfl (firedFor_fire _ _ _ _) ?_
        intro between after pending stands
        rw [working] at pending
        rcases follow_decoded pulled told pending with ⟨opened, remaining⟩
        refine ⟨between, after, ?_, remaining, stood stands⟩
        by_cases own : ready.ssrc = ssrc
        · simp [Callback.ssrc, Callback.notice, Phase.follow, Phase.advance, own, opened video own]
        · simp [Callback.ssrc, Phase.follow, own]
  | @removed removal rest working =>
      refine follows.carry rfl (firedFor_fire _ _ _ _) ?_
      intro between after pending stands
      rw [working] at pending
      rcases follow_removed pending with ⟨reached, closes, remaining⟩
      exact ⟨reached, after, closes, remaining, stands⟩
  | idle =>
      rw [List.append_nil]
      exact follows

/-! ## Runs -/

section Run

variable (codecs) (config : Config) (callbacks : Callbacks) (playback : Bool) (events : List Event)

/-- Everything that happened in a run, oldest first. -/
def effects : List (Effect codecs) := ((machine config callbacks playback).outputs events).flatten

theorem registered_run :
    Registered (effects codecs config callbacks playback events)
      ((machine config callbacks playback : Machine (ReceiveRouter codecs) _ _).run events) := by
  apply @Machine.history_invariant _ _ _ (machine config callbacks playback) fun past router =>
    Registered (effects codecs config callbacks playback past) router
  · refine ⟨OrderedMap.sorted_empty, ?_, ?_, ?_, ?_, ?_, ?_, ?_, ?_⟩ <;> intros <;>
      simp_all [effects, machine, create]
  · intro past event registered
    rw [effects, Machine.outputs_snoc, List.flatten_append, List.flatten_singleton]
    exact registered.change (step_change registered event)

theorem callbacks_run :
    ((machine config callbacks playback :
      Machine (ReceiveRouter codecs) _ _).run events).callbacks = callbacks := by
  apply @Machine.history_invariant _ _ _ (machine config callbacks playback) fun past router =>
    router.callbacks = callbacks
  · rfl
  · intro past event kept
    have registered := registered_run codecs config callbacks playback past
    exact (step_change registered event).callbacks.trans kept

theorem follows_run (ssrc : BitVec 32) :
    Follows ssrc (effects codecs config callbacks playback events)
      ((machine config callbacks playback : Machine (ReceiveRouter codecs) _ _).run events) := by
  apply @Machine.history_invariant _ _ _ (machine config callbacks playback) fun past router =>
    Follows ssrc (effects codecs config callbacks playback past) router
  · exact ⟨[], Phase.start, Phase.start, rfl, rfl, rfl, rfl, Nat.le_refl 0⟩
  · intro past event follows
    have registered := registered_run codecs config callbacks playback past
    rw [effects, Machine.outputs_snoc, List.flatten_append, List.flatten_singleton]
    exact follows.change registered (step_change registered event)

/-- No tick uses a decoder that is gone. -/
theorem decoders_alive (stream : Nat) :
    .dangling stream ∉ effects codecs config callbacks playback events :=
  (registered_run codecs config callbacks playback events).pointers stream

/-- Over every interleaving of pushes with the steps of ticks, the callbacks of an
SSRC are those of whole sessions so far, less the ones that are not set, and each
is fired for a stream that was created as video. -/
theorem stream_callbacks_bracketed (ssrc : BitVec 32) :
    (∃ notices, WellBracketed notices ∧
      firedFor ssrc (effects codecs config callbacks playback events) =
        notices.filter callbacks.installed) ∧
    ∀ stream callback,
      .fired stream callback ∈ effects codecs config callbacks playback events →
        .created stream callback.ssrc true ∈ effects codecs config callbacks playback events ∧
          ∀ other video,
            .created stream other video ∈ effects codecs config callbacks playback events →
              other = callback.ssrc ∧ video = true := by
  have registered := registered_run codecs config callbacks playback events
  constructor
  · rcases follows_run codecs config callbacks playback events ssrc with
      ⟨notices, between, _, fired, followed, _⟩
    rw [callbacks_run] at fired
    exact ⟨notices, wellBracketed_of_follow followed, fired⟩
  · intro stream callback fired
    have created := registered.fired stream callback fired
    exact ⟨created, fun other video again => registered.once _ _ _ _ _ created again⟩

end Run

end ReceiveRouter

end Vela
