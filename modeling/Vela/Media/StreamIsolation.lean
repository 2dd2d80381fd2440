import Vela.Media.StreamTasks

/-! # Every stream as if it were alone

The receive router serves each SSRC as a receiver with that one stream would: it
takes the SSRC's packets and the ticks, and nothing else. The router fires outside
the lock what a tick has pulled, while packets keep coming in; whatever it still
owes, it owes as the lone receiver produced it. -/

namespace Vela

open Foundation

namespace ReceiveRouter

open LoneReceiver (Heard audible)

variable {codecs : Codecs}

/-! ## What one step does -/

/-- The receiver that stands for one SSRC of the router. -/
def lone (router : ReceiveRouter codecs) :
    Machine (Option (LoneReceiver codecs)) LoneReceiver.Event (List (Heard codecs)) :=
  LoneReceiver.machine router.config router.callbacks router.playback

/-- A step makes heard, or owes, what the lone receiver makes of the SSRC's share
of it. -/
structure Settles (ssrc : BitVec 32) (effects : List (Effect codecs))
    (router : ReceiveRouter codecs) (event : Event) : Prop where
  receiver : (settle router.callbacks router.playback ssrc (router.step event).1).1 =
    (router.concerns ssrc event).foldl router.lone.next
      (settle router.callbacks router.playback ssrc router).1
  heard : heardThen ssrc effects (router.step event).2 ++
      (settle router.callbacks router.playback ssrc (router.step event).1).2 =
    (settle router.callbacks router.playback ssrc router).2 ++
      router.lone.producedFrom (settle router.callbacks router.playback ssrc router).1
        (router.concerns ssrc event)

/-- A step that is none of the SSRC's business. -/
theorem Settles.of_unconcerned {ssrc : BitVec 32} {effects : List (Effect codecs)}
    {router : ReceiveRouter codecs} {event : Event}
    (unconcerned : router.concerns ssrc event = [])
    (same : settle router.callbacks router.playback ssrc (router.step event).1 =
      settle router.callbacks router.playback ssrc router)
    (silent : heardThen ssrc effects (router.step event).2 = []) :
    Settles ssrc effects router event := by
  constructor
  · rw [same, unconcerned]
    rfl
  · rw [same, unconcerned, silent]
    simp

theorem performAll_some (receiver : LoneReceiver codecs) (tasks : List Task) :
    ∃ after, (performAll (some receiver) tasks).1 = some after := by
  induction tasks generalizing receiver with
  | nil => exact ⟨receiver, rfl⟩
  | cons task rest induction =>
      rw [performAll]
      cases task <;> exact induction _

/-- The only work left for an SSRC without a stream is to say farewell. -/
theorem Registered.farewells {effects : List (Effect codecs)} {router : ReceiveRouter codecs}
    {ssrc : BitVec 32} (registered : Registered effects router)
    (absent : router.streams.find? ssrc = none) :
    ∀ task ∈ router.working.tasksFor ssrc, task = .farewell := by
  intro task member
  rw [Tick.tasksFor, List.mem_append] at member
  rcases member with ofReady | ofRemoval
  · rcases List.mem_flatMap.mp ofReady with ⟨ready, inside, owed⟩
    split at owed
    · rename_i same
      rcases registered.ready ready inside with ⟨stream, found, _⟩
      rw [same, absent] at found
      cases found
    · cases owed
  · rcases List.mem_flatMap.mp ofRemoval with ⟨removal, _, owed⟩
    split at owed
    · exact List.mem_singleton.mp owed
    · cases owed

theorem settles_pushPacket {effects : List (Effect codecs)} {router : ReceiveRouter codecs}
    (registered : Registered effects router) (ssrc : BitVec 32) (packet : RtpPacket)
    (arrival : SteadyTime) : Settles ssrc effects router (.pushPacket packet arrival) := by
  by_cases own : packet.ssrc = ssrc
  · have share : router.concerns ssrc (.pushPacket packet arrival) = [.packet packet arrival] :=
      if_pos own
    cases found : router.streams.find? packet.ssrc with
    | some stream =>
        rcases Stream.alone_isSome (registered.decoder _ _ found) with ⟨receiver, alone⟩
        have stepped : router.step (.pushPacket packet arrival) =
            ({ router with
              streams := router.streams.store packet.ssrc (stream.feed packet arrival) }, []) := by
          rw [step, pushPacket, found]
        have taken := performAll_take (some receiver) packet arrival (router.working.tasksFor ssrc)
        rcases performAll_some receiver (router.working.tasksFor ssrc) with ⟨after, lives⟩
        have before : settle router.callbacks router.playback ssrc router =
            (some after, (performAll (some receiver) (router.working.tasksFor ssrc)).2.filter
              (audible router.callbacks router.playback)) := by
          rw [settle, ← own, found, Option.bind_some, alone, own, ← lives]
        have later : settle router.callbacks router.playback ssrc
              (router.step (.pushPacket packet arrival)).1 =
            (some (after.take packet arrival),
              (settle router.callbacks router.playback ssrc router).2) := by
          rw [before, settle, stepped, registered.find?_store, if_pos own.symm, Option.bind_some,
            alone_feed, alone, taken, lives]
          rfl
        constructor
        · rw [later, before, share]
          rfl
        · rw [later, share, before, stepped]
          simp [heardThen, lone, LoneReceiver.machine, LoneReceiver.step, Machine.output]
    | none =>
        have farewells := registered.farewells (own ▸ found)
        have stepped : router.step (.pushPacket packet arrival) =
            ({ router with
                streams := router.streams.store packet.ssrc
                  ((router.newStream packet).feed packet arrival)
                allocated := router.allocated + 1 },
              [.created router.allocated packet.ssrc (router.newStream packet).video]) := by
          rw [step, pushPacket, found]
          rfl
        have before : settle router.callbacks router.playback ssrc router =
            (none, ((router.working.tasksFor ssrc).map fun _ => .streamRemoved).filter
              (audible router.callbacks router.playback)) := by
          rw [settle, ← own, found, Option.bind_none, own, performAll_farewells _ farewells]
        have later : settle router.callbacks router.playback ssrc
              (router.step (.pushPacket packet arrival)).1 =
            (some ((LoneReceiver.openFor router.config packet).take packet arrival),
              (settle router.callbacks router.playback ssrc router).2) := by
          rw [before, settle, stepped, registered.find?_store, if_pos own.symm, Option.bind_some,
            alone_feed, alone_newStream, performAll_farewells _ farewells]
          rfl
        constructor
        · rw [later, before, share]
          rfl
        · rw [later, share, before, stepped]
          simp [heardThen, Effect.heardBy, lone, LoneReceiver.machine, LoneReceiver.step,
            Machine.output]
  · have elsewhere : ∀ stream, (router.streams.store packet.ssrc stream).find? ssrc =
        router.streams.find? ssrc := by
      intro stream
      rw [registered.find?_store, if_neg (Ne.symm own)]
    apply Settles.of_unconcerned
    · exact if_neg own
    · rw [step, pushPacket]
      split <;> simp only [settle, elsewhere]
    · rw [step, pushPacket]
      split <;> rfl

theorem settles_tick {effects : List (Effect codecs)} {router : ReceiveRouter codecs}
    (registered : Registered effects router) (ssrc : BitVec 32) (now : SteadyTime) :
    Settles ssrc effects router (.tick now) := by
  by_cases done : router.working = {}
  · have began : router.tick now =
        { router with
          streams := router.streams.leave (kept router.config now router.streams.entries)
          working := sweep router.config now router.streams.entries } := by
      rw [tick, done]
    have share : router.concerns ssrc (.tick now) = [.tick now] := by
      rw [concerns, done]
      rfl
    have before : settle router.callbacks router.playback ssrc router =
        ((router.streams.find? ssrc).bind Stream.alone, []) := by
      rw [settle, done]
      rfl
    have later : settle router.callbacks router.playback ssrc (router.step (.tick now)).1 =
        router.lone.step ((router.streams.find? ssrc).bind Stream.alone) (.tick now) := by
      rw [settle, step, began, find?_kept registered.sorted, sweep_tasksFor registered.sorted]
      cases found : router.streams.find? ssrc with
      | none => rfl
      | some stream =>
          rcases Stream.alone_isSome (registered.decoder _ _ found) with ⟨receiver, alone⟩
          rw [Option.bind_some, visit_settles router.config now ssrc alone, Option.bind_some, alone]
          rfl
    constructor
    · rw [later, before, share]
      rfl
    · rw [later, before, share]
      simp [heardThen, step, Machine.output]
  · have idle : router.tick now = router := by
      rw [tick]
      split
      · rename_i returned
        exact absurd returned done
      · rfl
    apply Settles.of_unconcerned
    · rw [concerns, if_neg (mt (Tick.isDone_iff _).mp done)]
    · rw [step, idle]
    · rfl

theorem tasksFor_cons (ready : Ready) (rest : List Ready) (removals : List Removal)
    (ssrc : BitVec 32) :
    Tick.tasksFor ⟨ready :: rest, removals⟩ ssrc =
      (if ready.ssrc = ssrc then ready.tasks else []) ++ Tick.tasksFor ⟨rest, removals⟩ ssrc := by
  simp [Tick.tasksFor]

/-- A step without a share for the SSRC makes heard what was owed. -/
theorem Settles.of_paid {ssrc : BitVec 32} {effects : List (Effect codecs)}
    {router : ReceiveRouter codecs} {event : Event}
    (unconcerned : router.concerns ssrc event = [])
    (receiver : (settle router.callbacks router.playback ssrc (router.step event).1).1 =
      (settle router.callbacks router.playback ssrc router).1)
    (paid : heardThen ssrc effects (router.step event).2 ++
        (settle router.callbacks router.playback ssrc (router.step event).1).2 =
      (settle router.callbacks router.playback ssrc router).2) :
    Settles ssrc effects router event := by
  constructor
  · rw [receiver, unconcerned]
    rfl
  · rw [paid, unconcerned]
    simp

theorem heardThen_fire (router : ReceiveRouter codecs) (ssrc : BitVec 32)
    (effects : List (Effect codecs)) (stream : Nat) (callback : Callback codecs) :
    heardThen ssrc effects (router.fire stream callback) =
      (if callback.ssrc = ssrc then [callback.heard] else []).filter
        (audible router.callbacks router.playback) := by
  have handled : router.callbacks.handles callback =
      audible router.callbacks router.playback callback.heard := by
    cases callback <;> rfl
  rw [fire, handled]
  by_cases same : callback.ssrc = ssrc
  · cases set : audible router.callbacks router.playback callback.heard <;>
      simp [heardThen, Effect.heardBy, same, set]
  · split <;> simp [heardThen, Effect.heardBy, same]

theorem heardThen_enqueue {effects : List (Effect codecs)} {router : ReceiveRouter codecs}
    {ready : Ready} (registered : Registered effects router)
    (inside : ready ∈ router.working.ready) (ssrc : BitVec 32) (sound : codecs.AudioFrame) :
    heardThen ssrc effects [.enqueue ready.stream sound] =
      if ready.ssrc = ssrc then [.sound sound] else [] := by
  rcases registered.ready ready inside with ⟨stream, found, number, _⟩
  have created := registered.created _ _ found
  rw [number] at created
  have owns : ready.stream ∈ streamsOf ssrc (effects ++ [.enqueue ready.stream sound]) ↔
      ready.ssrc = ssrc := by
    rw [mem_streamsOf]
    constructor
    · rintro ⟨kind, member⟩
      rcases List.mem_append.mp member with earlier | now
      · exact (registered.once _ _ _ _ _ earlier created).1
      · cases List.mem_singleton.mp now
    · intro same
      exact ⟨stream.video, List.mem_append_left _ (same ▸ created)⟩
  by_cases same : ready.ssrc = ssrc <;> simp [heardThen, Effect.heardBy, owns, same]

/-- One decode of the router is one decode of the lone receiver. -/
theorem decode_alone {effects : List (Effect codecs)} {router : ReceiveRouter codecs}
    {ready : Ready} {working : Tick} {frame : EncodedFrame} (registered : Registered effects router)
    (inside : ready ∈ router.working.ready) :
    ∃ stream receiver after,
      router.streams.find? ready.ssrc = some stream ∧ stream.alone = some receiver ∧
      after.alone = some (receiver.decode frame).1 ∧
      (({ router with working }).decode ready frame).1 =
        { router with working, streams := router.streams.store ready.ssrc after } ∧
      ∀ ssrc, heardThen ssrc effects (({ router with working }).decode ready frame).2 =
        if ready.ssrc = ssrc then
          (receiver.decode frame).2.filter (audible router.callbacks router.playback) else [] := by
  rcases registered.ready ready inside with ⟨stream, found, number, video⟩
  have has := registered.decoder _ _ found
  rw [Stream.HasDecoder, video] at has
  have onlyWhen : ∀ (ssrc : BitVec 32) (items : List (Heard codecs)),
      (if ready.ssrc = ssrc then items else []).filter (audible router.callbacks router.playback) =
        if ready.ssrc = ssrc then items.filter (audible router.callbacks router.playback)
        else [] := by
    intro ssrc items
    split <;> rfl
  cases kind : ready.video with
  | true =>
      rw [kind, if_pos rfl] at has
      rcases Option.isSome_iff_exists.mp has with ⟨vdec, holds⟩
      refine ⟨stream, ⟨stream.jitter, .video vdec stream.announced, stream.lastPacket⟩,
        { stream with vdec := some (codecs.decodeVideo vdec frame).1 }, found, ?_, ?_, ?_, ?_⟩
      · simp [Stream.alone, Stream.loneDecoder, video, kind, holds]
      · simp [Stream.alone, Stream.loneDecoder, video, kind, LoneReceiver.decode]
      · simp [decode, found, number, kind, holds]
      · intro ssrc
        rcases decoded : codecs.decodeVideo vdec frame with ⟨_, outcome⟩
        simp only [decode, found, number, kind, holds, LoneReceiver.decode, decoded, ne_eq,
          not_true_eq_false, if_false, if_true]
        cases outcome with
        | error _ => simp [heardThen]
        | ok picture =>
            dsimp only
            rw [heardThen_fire]
            exact onlyWhen ssrc [.picture picture]
  | false =>
      rw [kind, if_neg Bool.false_ne_true] at has
      rcases Option.isSome_iff_exists.mp has with ⟨adec, holds⟩
      refine ⟨stream, ⟨stream.jitter, .audio adec, stream.lastPacket⟩,
        { stream with adec := some (codecs.decodeAudio adec frame).1 }, found, ?_, ?_, ?_, ?_⟩
      · simp [Stream.alone, Stream.loneDecoder, video, kind, holds]
      · simp [Stream.alone, Stream.loneDecoder, video, kind, LoneReceiver.decode]
      · simp [decode, found, number, kind, holds]
      · intro ssrc
        rcases decoded : codecs.decodeAudio adec frame with ⟨_, outcome⟩
        simp only [decode, found, number, kind, holds, LoneReceiver.decode, decoded, ne_eq,
          not_true_eq_false, Bool.false_eq_true, if_false]
        cases outcome with
        | error _ => simp [heardThen]
        | ok sound =>
            dsimp only
            cases played : router.playback with
            | false => simp [heardThen, audible]
            | true =>
                rw [if_pos rfl, heardThen_enqueue registered inside]
                rfl

/-- A step that does the first of an SSRC's tasks. -/
theorem Settles.of_tasks {ssrc : BitVec 32} {effects : List (Effect codecs)}
    {router : ReceiveRouter codecs} {event : Event} (tasks : List Task)
    (unconcerned : router.concerns ssrc event = [])
    (split : router.working.tasksFor ssrc =
      tasks ++ (router.step event).1.working.tasksFor ssrc)
    (receiver : ((router.step event).1.streams.find? ssrc).bind Stream.alone =
      (performAll ((router.streams.find? ssrc).bind Stream.alone) tasks).1)
    (heard : heardThen ssrc effects (router.step event).2 =
      (performAll ((router.streams.find? ssrc).bind Stream.alone) tasks).2.filter
        (audible router.callbacks router.playback)) :
    Settles ssrc effects router event := by
  have before : settle router.callbacks router.playback ssrc router =
      ((settle router.callbacks router.playback ssrc (router.step event).1).1,
        heardThen ssrc effects (router.step event).2 ++
          (settle router.callbacks router.playback ssrc (router.step event).1).2) := by
    rw [heard, settle, settle, split, performAll_append, receiver]
    simp only [List.filter_append]
  apply Settles.of_paid unconcerned
  · rw [before]
  · rw [before]

theorem performAll_if (receiver : Option (LoneReceiver codecs)) (task : Task)
    (condition : Prop) [Decidable condition] :
    performAll receiver (if condition then [task] else []) =
      if condition then task.perform receiver else (receiver, []) := by
  split
  · simp [performAll]
  · rfl

theorem settles_proceed {effects : List (Effect codecs)} {router : ReceiveRouter codecs}
    (registered : Registered effects router) (ssrc : BitVec 32) :
    Settles ssrc effects router .proceed := by
  rcases working : router.working with ⟨_ | ⟨ready, rest⟩, removals⟩
  · cases removals with
    | nil =>
        have stepped : router.step .proceed = (router, []) := by
          rw [step, proceed, working]
        exact .of_unconcerned rfl (by rw [stepped]) (by rw [stepped]; rfl)
    | cons removal rest =>
        have stepped : router.step .proceed =
            ({ router with working := ⟨[], rest⟩ },
              router.fire removal.stream (.onVideoStreamRemoved removal.ssrc)) := by
          rw [step, proceed, working]
        apply Settles.of_tasks (if removal.ssrc = ssrc then [.farewell] else []) rfl
        · rw [stepped, working]
          simp [Tick.tasksFor]
        · rw [stepped, performAll_if]
          split <;> rfl
        · rw [stepped, heardThen_fire, performAll_if]
          by_cases own : removal.ssrc = ssrc <;>
            simp [own, Callback.ssrc, Callback.heard, Task.perform]
  · have inside : ready ∈ router.working.ready := by
      rw [working]
      exact List.mem_cons_self
    cases announces : ready.video && ready.announce with
    | true =>
        have stepped : router.step .proceed =
            ({ router with working := ⟨{ ready with announce := false } :: rest, removals⟩ },
              router.fire ready.stream (.onVideoStreamAdded ready.ssrc)) := by
          rw [step, proceed, working]
          dsimp only
          rw [if_pos announces]
        apply Settles.of_tasks (if ready.ssrc = ssrc then [.announce] else []) rfl
        · rw [stepped, working, tasksFor_cons, tasksFor_cons, ← List.append_assoc]
          congr 1
          split <;> simp [Ready.tasks, announces]
        · rw [stepped, performAll_if]
          split <;> rfl
        · rw [stepped, heardThen_fire, performAll_if]
          by_cases own : ready.ssrc = ssrc <;>
            simp [own, Callback.ssrc, Callback.heard, Task.perform]
    | false =>
        have quiet : ¬(ready.video && ready.announce) = true := by
          rw [announces]
          exact Bool.false_ne_true
        cases pulled : ready.frames with
        | nil =>
            have stepped : router.step .proceed =
                ({ router with working := ⟨rest, removals⟩ }, []) := by
              rw [step, proceed, working]
              dsimp only
              rw [if_neg quiet, pulled]
            apply Settles.of_tasks [] rfl
            · rw [stepped, working, tasksFor_cons]
              simp [Ready.tasks, announces, pulled]
            · rw [stepped]
              rfl
            · rw [stepped]
              rfl
        | cons frame frames =>
            rcases @decode_alone codecs effects router ready
              ⟨{ ready with frames } :: rest, removals⟩ frame registered inside with
              ⟨stream, receiver, after, found, alone, decoded, reached, heard⟩
            have stepped : router.step .proceed =
                { router with working := ⟨{ ready with frames } :: rest, removals⟩ }.decode
                  ready frame := by
              rw [step, proceed, working]
              dsimp only
              rw [if_neg quiet, pulled]
            apply Settles.of_tasks (if ready.ssrc = ssrc then [.decode frame] else []) rfl
            · rw [stepped, reached, working, tasksFor_cons, tasksFor_cons, ← List.append_assoc]
              congr 1
              split <;> simp [Ready.tasks, announces, pulled]
            · rw [stepped, reached, performAll_if, registered.find?_store]
              by_cases own : ready.ssrc = ssrc
              · rw [if_pos own, if_pos own.symm, ← own, found, Option.bind_some, Option.bind_some,
                  alone, decoded]
                rfl
              · rw [if_neg own, if_neg (Ne.symm own)]
            · rw [stepped, heard, performAll_if]
              by_cases own : ready.ssrc = ssrc
              · rw [if_pos own, if_pos own, ← own, found, Option.bind_some, alone]
                rfl
              · rw [if_neg own, if_neg own]
                rfl

/-! ## A tick returns -/

/-- How many steps a tick has still to take. -/
def Tick.remaining (tick : Tick) : Nat :=
  (tick.ready.map fun ready => ready.frames.length + ready.announce.toNat + 1).sum +
    tick.removedVideo.length

theorem decode_working (router : ReceiveRouter codecs) (ready : Ready) (frame : EncodedFrame) :
    (router.decode ready frame).1.working = router.working := by
  rw [decode]
  split
  · rfl
  · split
    · rfl
    · split <;> split <;> rfl

theorem remaining_proceed {router : ReceiveRouter codecs} (busy : router.working ≠ {}) :
    router.proceed.1.working.remaining < router.working.remaining := by
  rcases working : router.working with ⟨_ | ⟨ready, rest⟩, removals⟩
  · cases removals with
    | nil => exact absurd working busy
    | cons removal rest =>
        rw [proceed, working]
        simp [Tick.remaining]
  · rw [proceed, working]
    dsimp only
    split
    · rename_i announces
      rw [Bool.and_eq_true] at announces
      simp [Tick.remaining, announces.2]
    · split
      · simp [Tick.remaining]
      · rename_i pulled
        rw [decode_working]
        simp [Tick.remaining, pulled]

theorem Change.settings {router next : ReceiveRouter codecs} {effects : List (Effect codecs)}
    (change : Change router next effects) :
    next.config = router.config ∧ next.playback = router.playback := by
  cases change <;> exact ⟨rfl, rfl⟩

section Run

variable (codecs) (config : Config) (callbacks : Callbacks) (playback : Bool) (events : List Event)

/-- However far a tick has come, it returns. -/
theorem tick_returns : ∃ count,
    ((machine config callbacks playback : Machine (ReceiveRouter codecs) _ _).run
      (events ++ List.replicate count .proceed)).working = {} := by
  exact @Machine.comes_to_rest _ _ _ (machine config callbacks playback)
    (fun router : ReceiveRouter codecs => router.working = {}) .proceed
    (fun router => router.working.remaining) (fun _ busy => remaining_proceed busy) events

/-! ## Runs -/

theorem settings_run :
    ((machine config callbacks playback : Machine (ReceiveRouter codecs) _ _).run events).config =
        config ∧
      ((machine config callbacks playback :
        Machine (ReceiveRouter codecs) _ _).run events).playback = playback := by
  apply @Machine.history_invariant _ _ _ (machine config callbacks playback) fun _ router =>
    router.config = config ∧ router.playback = playback
  · exact ⟨rfl, rfl⟩
  · intro past event kept
    have settings :=
      (step_change (registered_run codecs config callbacks playback past) event).settings
    exact ⟨settings.1.trans kept.1, settings.2.trans kept.2⟩

theorem soundsPlaced_run : SoundsPlaced (effects codecs config callbacks playback events) := by
  induction events using List.reverseRecOn with
  | nil => exact fun _ _ enqueued => nomatch enqueued
  | append_singleton past event induction =>
      have registered := registered_run codecs config callbacks playback past
      rw [effects, Machine.outputs_snoc, List.flatten_append, List.flatten_singleton]
      exact induction.change registered (step_change registered event)

/-- The share that an SSRC has in a run. -/
def ownEvents (ssrc : BitVec 32) : List LoneReceiver.Event :=
  (machine config callbacks playback : Machine (ReceiveRouter codecs) _ _).shares
    (concerns ssrc) events

/-- What has been heard of an SSRC, with what a tick in progress still owes it, is
what the lone receiver made of its share. -/
theorem settled_run (ssrc : BitVec 32) :
    (settle callbacks playback ssrc ((machine config callbacks playback :
        Machine (ReceiveRouter codecs) _ _).run events)).1 =
        (LoneReceiver.machine config callbacks playback).run
          (ownEvents codecs config callbacks playback events ssrc) ∧
      heardFor ssrc (effects codecs config callbacks playback events) ++
          (settle callbacks playback ssrc ((machine config callbacks playback).run events)).2 =
        (LoneReceiver.machine config callbacks playback).produced
          (ownEvents codecs config callbacks playback events ssrc) := by
  have settles : ∀ past event,
      Settles ssrc (effects codecs config callbacks playback past)
        ((machine config callbacks playback).run past) event := by
    intro past event
    have registered := registered_run codecs config callbacks playback past
    cases event with
    | pushPacket packet arrival => exact settles_pushPacket registered ssrc packet arrival
    | tick now => exact settles_tick registered ssrc now
    | proceed => exact settles_proceed registered ssrc
  have same : ∀ past, ((machine config callbacks playback :
      Machine (ReceiveRouter codecs) _ _).run past).lone =
        LoneReceiver.machine config callbacks playback := by
    intro past
    have settings := settings_run codecs config callbacks playback past
    rw [lone, settings.1, settings.2, callbacks_run]
  apply Machine.deferral
  · rfl
  · rfl
  · intro past event
    have stepped := (settles past event).receiver
    rw [same, callbacks_run, (settings_run codecs config callbacks playback past).2] at stepped
    exact stepped
  · intro past event
    have stepped := (settles past event).heard
    rw [same, callbacks_run, (settings_run codecs config callbacks playback past).2] at stepped
    have later := registered_run codecs config callbacks playback (past ++ [event])
    have appended : effects codecs config callbacks playback (past ++ [event]) =
        effects codecs config callbacks playback past ++
          (((machine config callbacks playback).run past).step event).2 := by
      rw [effects, Machine.outputs_snoc, List.flatten_append, List.flatten_singleton]
      rfl
    rw [appended] at later ⊢
    rw [heardFor_append (soundsPlaced_run codecs config callbacks playback past) later,
      List.append_assoc]
    exact congrArg _ stepped

/-- Events of the thread in `tick` are no part of an SSRC's share. -/
theorem ownEvents_proceeds (ssrc : BitVec 32) (count : Nat) :
    ownEvents codecs config callbacks playback (events ++ List.replicate count .proceed) ssrc =
      ownEvents codecs config callbacks playback events ssrc := by
  induction count with
  | zero => simp
  | succ count induction =>
      rw [List.replicate_succ', ← List.append_assoc, ownEvents, Machine.shares_snoc]
      rw [← ownEvents, induction]
      exact List.append_nil _

/-- When no tick is in progress, nothing is owed. -/
theorem settle_done {router : ReceiveRouter codecs} (done : router.working = {})
    (ssrc : BitVec 32) :
    settle callbacks playback ssrc router =
      ((router.streams.find? ssrc).bind Stream.alone, []) := by
  rw [settle, done]
  rfl

/-- Whatever the other streams do, and wherever packets come in between the
callbacks of a tick, an SSRC is heard of as if it were alone: always the beginning
of what the lone receiver makes of its packets and of the ticks; all of it when no
tick is in progress, with its stream in the lone receiver's state; a tick returns;
and none uses a decoder that is gone. -/
theorem streams_isolated (ssrc : BitVec 32) :
    let router :=
      (machine config callbacks playback : Machine (ReceiveRouter codecs) _ _).run events
    let own := ownEvents codecs config callbacks playback events ssrc
    let alone : Machine (Option (LoneReceiver codecs)) _ _ :=
      LoneReceiver.machine config callbacks playback
    heardFor ssrc (effects codecs config callbacks playback events) <+: alone.produced own ∧
      (router.working = {} →
        heardFor ssrc (effects codecs config callbacks playback events) = alone.produced own ∧
          (router.streams.find? ssrc).isSome = (alone.run own).isSome ∧
          (router.streams.find? ssrc).bind Stream.alone = alone.run own) ∧
      (∃ count,
        ((machine config callbacks playback : Machine (ReceiveRouter codecs) _ _).run
          (events ++ List.replicate count .proceed)).working = {} ∧
        heardFor ssrc (effects codecs config callbacks playback
          (events ++ List.replicate count .proceed)) = alone.produced own) ∧
      ∀ stream, .dangling stream ∉ effects codecs config callbacks playback events := by
  intro router own alone
  have between : ∀ later, ((machine config callbacks playback :
        Machine (ReceiveRouter codecs) _ _).run later).working = {} →
      heardFor ssrc (effects codecs config callbacks playback later) =
        alone.produced (ownEvents codecs config callbacks playback later ssrc) := by
    intro later done
    have settled := settled_run codecs config callbacks playback later ssrc
    rw [settle_done codecs callbacks playback done, List.append_nil] at settled
    exact settled.2
  refine ⟨?_, fun done => ⟨between events done, ?_⟩, ?_, fun stream => ?_⟩
  · exact ⟨_, (settled_run codecs config callbacks playback events ssrc).2⟩
  · have settled := (settled_run codecs config callbacks playback events ssrc).1
    rw [settle_done codecs callbacks playback done] at settled
    refine ⟨?_, settled⟩
    rw [← settled]
    cases found : router.streams.find? ssrc with
    | none => rfl
    | some stream =>
        have registered := registered_run codecs config callbacks playback events
        rcases Stream.alone_isSome (registered.decoder _ _ found) with ⟨receiver, isAlone⟩
        rw [Option.bind_some, isAlone]
        rfl
  · rcases tick_returns codecs config callbacks playback events with ⟨count, returned⟩
    refine ⟨count, returned, ?_⟩
    rw [between _ returned, ownEvents_proceeds]
  · exact decoders_alive codecs config callbacks playback events stream

end Run

end ReceiveRouter

end Vela
