import Mathlib.Data.List.Chain
import Vela.Network.JitterBufferKeys

/-! # Frames that leave the jitter buffer

Every frame that `pop` takes out of the map, whether it is handed out or
dropped, in the order in which the frames go. The late test compares with the
last of them, and from the first one on their timestamps do not go backwards. -/

namespace Vela.JitterBuffer

open Foundation SerialNumber

/-- A frame that left the buffer, with what was handed out for it, if anything
was. -/
structure Departure where
  timestamp : BitVec 32
  handedOut : Option EncodedFrame
  deriving DecidableEq

/-- The frames that the loop of `pop` takes out: it goes on over those it
cannot hand out. -/
def departuresLoop (config : JitterBufferConfig) (now : SteadyTime) :
    List (BitVec 32 × PendingFrame) → List Departure
  | [] => []
  | (_, frame) :: rest =>
      if delayElapsed config now frame then
        ⟨frame.timestamp, playable config frame⟩ ::
          if (playable config frame).isSome then [] else departuresLoop config now rest
      else []

/-- The frames that one step takes out. -/
def leaving (buffer : JitterBuffer) : Event → List Departure
  | .push _ _ => []
  | .pop now => departuresLoop buffer.config now buffer.frames.entries

/-- The buffer, observed by what leaves it. -/
def observed (search : FrameSearch) (config : JitterBufferConfig) :
    Machine JitterBuffer Event (List Departure) where
  initial := create search config
  step := fun buffer event => ((buffer.step event).1, buffer.leaving event)

def departures (search : FrameSearch) (config : JitterBufferConfig) (events : List Event) :
    List Departure :=
  ((observed search config).outputs events).flatten

@[simp] theorem departures_nil (search : FrameSearch) (config : JitterBufferConfig) :
    departures search config [] = [] := rfl

@[simp] theorem departures_snoc (search : FrameSearch) (config : JitterBufferConfig)
    (events : List Event)
    (event : Event) :
    departures search config (events ++ [event]) =
      departures search config events ++ ((machine search config).run events).leaving event := by
  rw [departures, Machine.outputs_snoc, List.flatten_append, List.flatten_singleton]
  rfl

/-! ## Rules -/

variable {buffer : JitterBuffer} {left : List Departure}

/-- A property of the buffer and of what has left it, kept by every frame that
leaves, is kept by a pop. -/
theorem pop_departures {Property : List Departure → JitterBuffer → Prop}
    (counted : ∀ (left : List Departure) (buffer : JitterBuffer) (stats : JitterStats),
      Property left buffer → Property left { buffer with stats })
    (advanced : ∀ (left : List Departure) (buffer : JitterBuffer) (key : BitVec 32)
      (frame : PendingFrame) (rest : List (BitVec 32 × PendingFrame)),
      buffer.frames.entries = (key, frame) :: rest → Property left buffer →
        Property (left ++ [⟨frame.timestamp, playable buffer.config frame⟩])
          (buffer.advance frame rest))
    (holds : Property left buffer) (now : SteadyTime) :
    Property (left ++ buffer.leaving (.pop now)) (buffer.pop now).1 := by
  have loop : ∀ (entries : List (BitVec 32 × PendingFrame)) (left : List Departure)
      (buffer : JitterBuffer), buffer.frames.entries = entries → Property left buffer →
        Property (left ++ departuresLoop buffer.config now entries)
          (popLoop now entries buffer).1 := by
    intro entries
    induction entries with
    | nil =>
        intro left buffer _ holds
        rw [departuresLoop, List.append_nil]
        exact holds
    | cons entry rest induction =>
        intro left buffer same holds
        rcases entry with ⟨key, frame⟩
        have next := advanced left buffer key frame rest same holds
        rw [popLoop_cons, departuresLoop]
        by_cases elapsed : delayElapsed buffer.config now frame = true
        · rw [if_pos elapsed, if_pos elapsed]
          cases plays : playable buffer.config frame with
          | none =>
              rw [plays] at next
              have later := induction _ (buffer.advance frame rest) rfl next
              rw [List.append_assoc] at later
              exact later
          | some encoded =>
              rw [plays] at next
              exact counted _ _ _ next
        · rw [if_neg elapsed, if_neg elapsed, List.append_nil]
          exact holds
  exact loop buffer.frames.entries left buffer rfl holds

/-- The frames that leave are the first ones of the map, and what a pop returns
is what the last of them was handed out as. -/
theorem pop_leaving (buffer : JitterBuffer) (now : SteadyTime) :
    buffer.frames.entries.map (fun entry => entry.2.timestamp) =
        (buffer.leaving (.pop now)).map Departure.timestamp ++
          (buffer.pop now).1.frames.entries.map (fun entry => entry.2.timestamp) ∧
      ∀ leaver ∈ buffer.leaving (.pop now), ∀ encoded, leaver.handedOut = some encoded →
        (buffer.pop now).2 = some encoded := by
  have loop : ∀ (entries : List (BitVec 32 × PendingFrame)) (buffer : JitterBuffer),
      buffer.frames.entries = entries →
        entries.map (fun entry => entry.2.timestamp) =
          (departuresLoop buffer.config now entries).map Departure.timestamp ++
            (popLoop now entries buffer).1.frames.entries.map (fun entry => entry.2.timestamp) ∧
        ∀ leaver ∈ departuresLoop buffer.config now entries, ∀ encoded,
          leaver.handedOut = some encoded → (popLoop now entries buffer).2 = some encoded := by
    intro entries
    induction entries with
    | nil =>
        intro buffer same
        refine ⟨by simp [popLoop, departuresLoop, same], ?_⟩
        intro leaver member
        cases member
    | cons entry rest induction =>
        intro buffer same
        rcases entry with ⟨key, frame⟩
        rw [popLoop_cons, departuresLoop]
        by_cases elapsed : delayElapsed buffer.config now frame = true
        · rw [if_pos elapsed, if_pos elapsed]
          cases plays : playable buffer.config frame with
          | none =>
              rcases induction (buffer.advance frame rest) rfl with ⟨entriesSplit, returned⟩
              refine ⟨congrArg (frame.timestamp :: ·) entriesSplit, ?_⟩
              intro leaver member encoded handedOut
              rcases List.mem_cons.mp member with first | later
              · rw [first] at handedOut
                cases handedOut
              · exact returned leaver later encoded handedOut
          | some playedOut =>
              refine ⟨rfl, ?_⟩
              intro leaver member encoded handedOut
              rw [List.mem_singleton.mp member] at handedOut
              exact handedOut
        · rw [if_neg elapsed, if_neg elapsed]
          refine ⟨by rw [same]; rfl, ?_⟩
          intro leaver member
          cases member
  exact loop buffer.frames.entries buffer rfl

/-- What the late test knows of the frames that have left. -/
structure Marked (left : List Departure) (buffer : JitterBuffer) : Prop where
  emitted : buffer.hasEmitted = true ↔ left ≠ []
  mark : ∀ last ∈ left.getLast?, buffer.lastEmittedTs = last.timestamp

theorem Marked.advance (left : List Departure) (buffer : JitterBuffer) (frame : PendingFrame)
    (rest : List (BitVec 32 × PendingFrame)) (handedOut : Option EncodedFrame) :
    Marked (left ++ [⟨frame.timestamp, handedOut⟩]) (buffer.advance frame rest) := by
  refine ⟨?_, ?_⟩
  · simp [JitterBuffer.advance]
  · intro last isLast
    rw [List.getLast?_concat, Option.mem_some_iff] at isLast
    rw [← isLast]
    rfl

theorem Marked.step (marked : Marked left buffer) (event : Event) :
    Marked (left ++ buffer.leaving event) (buffer.step event).1 := by
  cases event with
  | push packet arrival =>
      rw [leaving, List.append_nil]
      change Marked left (buffer.push packet arrival).1
      rcases push_cases buffer packet arrival with ⟨stats, refused, _⟩ | ⟨stats, accepted, _⟩
      · rw [refused]
        exact ⟨marked.emitted, marked.mark⟩
      · rw [accepted]
        exact ⟨marked.emitted, marked.mark⟩
  | pop now =>
      apply @pop_departures buffer left Marked
      · exact fun _ _ _ marked => ⟨marked.emitted, marked.mark⟩
      · exact fun left buffer _ frame rest _ _ => Marked.advance left buffer frame rest _
      · exact marked

theorem marked_run (search : FrameSearch) (config : JitterBufferConfig) (events : List Event) :
    Marked (departures search config events) ((machine search config).run events) := by
  apply @Machine.history_invariant _ _ _ (machine search config)
    fun past state => Marked (departures search config past) state
  · exact ⟨by simp [machine, create], by simp⟩
  · intro past event marked
    rw [departures_snoc]
    exact marked.step event

/-! ## Playout order -/

/-- `later` is neither at nor before `earlier`. -/
def Follows (earlier later : Departure) : Prop :=
  later.timestamp ≠ earlier.timestamp ∧ tsLessThan later.timestamp earlier.timestamp = false

/-- What holds of the frames that have left and of those that wait, when what
came before the first departure lies in the half circle from `base` on. -/
structure InOrder (base : BitVec 32) (left : List Departure) (buffer : JitterBuffer) : Prop
    extends Anchored buffer, Marked left buffer where
  window : left = [] → ∀ key ∈ buffer.frames.keys, InHalf base key
  chain : left.IsChain Follows

theorem InOrder.advance {base : BitVec 32} (inOrder : InOrder base left buffer) {key : BitVec 32}
    {frame : PendingFrame} {rest : List (BitVec 32 × PendingFrame)}
    (split : buffer.frames.entries = (key, frame) :: rest) (handedOut : Option EncodedFrame) :
    InOrder base (left ++ [⟨frame.timestamp, handedOut⟩]) (buffer.advance frame rest) := by
  have isEntry : (key, frame) ∈ buffer.frames.entries := by
    rw [split]
    exact List.mem_cons_self
  refine ⟨inOrder.toAnchored.advance split, Marked.advance left buffer frame rest handedOut,
    fun empty => by simp at empty, ?_⟩
  apply List.IsChain.append inOrder.chain (List.isChain_singleton _)
  intro last isLast leaver isLeaver
  rw [List.head?_cons, Option.mem_some_iff] at isLeaver
  subst isLeaver
  have someLeft : left ≠ [] := by
    rintro rfl
    cases isLast
  have after := inOrder.playedOut (inOrder.emitted.mpr someLeft) key
    (OrderedMap.mem_keys.mpr ⟨frame, isEntry⟩)
  have stamp : frame.timestamp = key := inOrder.stamped _ isEntry
  rw [inOrder.mark last isLast, ← stamp] at after
  exact inHalf_succ_iff_not_late.mp after

/-- What keeps the pending timestamps in the window until the first departure. -/
def StartsWithin (base : BitVec 32) (left : List Departure) : Event → Prop
  | .push packet _ => left = [] → InHalf base packet.timestamp
  | .pop _ => True

theorem InOrder.step {base : BitVec 32} (inOrder : InOrder base left buffer) {event : Event}
    (starts : StartsWithin base left event) :
    InOrder base (left ++ buffer.leaving event) (buffer.step event).1 := by
  cases event with
  | pop now =>
      apply @pop_departures buffer left (InOrder base)
      · exact fun _ _ stats inOrder => ⟨inOrder.toAnchored.counted stats,
          ⟨inOrder.emitted, inOrder.mark⟩, inOrder.window, inOrder.chain⟩
      · exact fun _ _ _ _ _ split inOrder => inOrder.advance split _
      · exact inOrder
  | push packet arrival =>
      have marked := inOrder.toMarked.step (.push packet arrival)
      rw [leaving, List.append_nil] at marked ⊢
      have fits : left = [] → FitHalf (packet.timestamp :: buffer.frames.keys) := by
        intro none
        refine ⟨base, fun key member => ?_⟩
        rcases List.mem_cons.mp member with isNew | old
        · rw [isNew]
          exact starts none
        · exact inOrder.window none key old
      have keeps : KeepsWindow buffer (.push packet arrival) := by
        by_cases none : left = []
        · exact .inr (.inr (fits none))
        · exact .inl (inOrder.emitted.mpr none)
      refine ⟨inOrder.toAnchored.step keeps, marked, ?_, inOrder.chain⟩
      intro none key member
      change key ∈ (buffer.push packet arrival).1.frames.keys at member
      rcases push_cases buffer packet arrival with ⟨stats, refused, _⟩ | ⟨stats, accepted, _⟩
      · rw [refused] at member
        exact inOrder.window none key member
      · rw [accepted] at member
        have ordered := (tsOrder_iff_fitHalf _).mpr (fits none)
        rcases (OrderedMap.mem_keys_store inOrder.sorted ordered).mp member with isNew | old
        · rw [isNew]
          exact starts none
        · exact inOrder.window none key old

/-- Every packet pushed before the first frame has left has its timestamp in the
half circle from `base` on. -/
def OpensWithin (search : FrameSearch) (config : JitterBufferConfig) (base : BitVec 32)
    (events : List Event) : Prop :=
  ∀ past packet arrival, past ++ [.push packet arrival] <+: events →
    departures search config past = [] → InHalf base packet.timestamp

theorem inOrder_run {search : FrameSearch} {config : JitterBufferConfig} {base : BitVec 32}
    {events : List Event}
    (opens : OpensWithin search config base events) :
    InOrder base (departures search config events) ((machine search config).run events) := by
  induction events using List.reverseRecOn with
  | nil =>
      refine ⟨Anchored.create search config, marked_run search config [], ?_, .nil⟩
      intro _ key member
      cases member
  | append_singleton past event induction =>
      have earlier : OpensWithin search config base past := fun before packet arrival isPrefix =>
        opens before packet arrival (isPrefix.trans (List.prefix_append past [event]))
      have starts : StartsWithin base (departures search config past) event := by
        cases event with
        | push packet arrival => exact opens past packet arrival (List.prefix_refl _)
        | pop now => trivial
      rw [departures_snoc, Machine.run_snoc]
      exact (induction earlier).step starts

/-- No frame leaves at or before the one that left before it, and from the first
departure on every pending timestamp lies in the half circle after the last one,
so that the comparator orders the keys in every state. -/
theorem playout_never_back (search : FrameSearch) (config : JitterBufferConfig) (base : BitVec 32)
    (events : List Event)
    (opens : OpensWithin search config base events) :
    (departures search config events).IsChain Follows ∧
      (∀ past, past <+: events → departures search config past ≠ [] →
        ∀ key ∈ ((machine search config).run past).frames.keys,
          1 ≤ (key - ((machine search config).run past).lastEmittedTs).toNat ∧
          (key - ((machine search config).run past).lastEmittedTs).toNat ≤ 2 ^ 31) ∧
      (machine search config).Always (fun buffer => StrictOrderOn tsLessThan buffer.frames.keys)
        events := by
  have everywhere : ∀ past, past <+: events →
      InOrder base (departures search config past) ((machine search config).run past) := by
    intro past isPrefix
    exact inOrder_run fun before packet arrival shorter =>
      opens before packet arrival (shorter.trans isPrefix)
  refine ⟨(everywhere events (List.prefix_refl _)).chain, ?_, ?_⟩
  · intro past isPrefix someLeft key member
    have inOrder := everywhere past isPrefix
    exact (inHalf_succ_iff (by decide)).mp
      (inOrder.playedOut (inOrder.emitted.mpr someLeft) key member)
  · exact fun past isPrefix => (everywhere past isPrefix).ordered

theorem playout_never_back_example :
    let config : JitterBufferConfig := { kind := .audio }
    let events : List Event := [.push { timestamp := 1 } 0, .pop 50000000,
      .push { timestamp := 0x80000000 } 50000000, .pop 100000000]
    (departures (.linear _) config events).IsChain Follows ∧
      (∀ past, past <+: events → departures (.linear _) config past ≠ [] →
        ∀ key ∈ ((machine (.linear _) config).run past).frames.keys,
          1 ≤ (key - ((machine (.linear _) config).run past).lastEmittedTs).toNat ∧
          (key - ((machine (.linear _) config).run past).lastEmittedTs).toNat ≤ 2 ^ 31) ∧
      (machine (.linear _) config).Always
        (fun buffer => StrictOrderOn tsLessThan buffer.frames.keys) events := by
  intro config events
  apply playout_never_back (.linear _) config 1 events
  intro past packet arrival isPrefix _
  have member : Event.push packet arrival ∈ events := isPrefix.subset (by simp)
  simp only [events, List.mem_cons, Event.push.injEq, reduceCtorEq, List.not_mem_nil,
    false_or, or_false] at member
  rcases member with ⟨rfl, _⟩ | ⟨rfl, _⟩ <;> decide

/-! ## Late packets -/

/-- A frame at or after `timestamp` has been handed out. -/
def Played (calls : List (Event × Output)) (timestamp : BitVec 32) : Prop :=
  ∃ now frame, (.pop now, .popped (some frame)) ∈ calls ∧
    (timestamp = frame.rtpTimestamp ∨ tsLessThan timestamp frame.rtpTimestamp = true)

/-- Whenever a packet is refused as late, its time has been played. -/
def LateIsPlayed (search : FrameSearch) (config : JitterBufferConfig) (events : List Event) :
    Prop :=
  ∀ past packet arrival, past ++ [.push packet arrival] <+: events →
    ((machine search config).run past).isLate packet.timestamp = true →
      Played ((machine search config).transcript past) packet.timestamp

/-- The packet comes after the frame that left last, or that frame was handed
out, under its own timestamp. -/
def Unmuted (left : List Departure) : Event → Prop
  | .push packet _ => ∀ last ∈ left.getLast?,
      (packet.timestamp ≠ last.timestamp ∧ tsLessThan packet.timestamp last.timestamp = false) ∨
      ∃ frame, last.handedOut = some frame ∧ frame.rtpTimestamp = last.timestamp
  | .pop _ => True

theorem returned_of_handedOut {search : FrameSearch} {config : JitterBufferConfig}
    {events : List Event} {leaver : Departure} {frame : EncodedFrame}
    (member : leaver ∈ departures search config events)
    (handedOut : leaver.handedOut = some frame) :
    ∃ now, (.pop now, .popped (some frame)) ∈ (machine search config).transcript events := by
  induction events using List.reverseRecOn with
  | nil => cases member
  | append_singleton past event induction =>
      rw [departures_snoc] at member
      rw [Machine.transcript_snoc]
      rcases List.mem_append.mp member with earlier | now
      · rcases induction earlier with ⟨now, returned⟩
        exact ⟨now, List.mem_append_left _ returned⟩
      · cases event with
        | push packet arrival => cases now
        | pop instant =>
            have result := (pop_leaving _ instant).2 leaver now frame handedOut
            refine ⟨instant, List.mem_append_right _ ?_⟩
            rw [← result]
            exact List.mem_singleton.mpr rfl

/-- A run in which no packet comes at or before a frame that was only dropped
refuses none but packets whose time has been played. -/
theorem lateIsPlayed_of_unmuted (search : FrameSearch) (config : JitterBufferConfig)
    (events : List Event)
    (unmuted : ∀ past event, past ++ [event] <+: events →
      Unmuted (departures search config past) event) :
    LateIsPlayed search config events := by
  intro past packet arrival isPrefix late
  have marked := marked_run search config past
  rw [isLate, Bool.and_eq_true, Bool.or_eq_true, beq_iff_eq] at late
  rcases late with ⟨emitted, atOrBefore⟩
  have someLeft := List.getLast?_eq_some_getLast (marked.emitted.mp emitted)
  rw [marked.mark _ someLeft] at atOrBefore
  rcases unmuted past _ isPrefix _ someLeft with ⟨different, notBefore⟩ | ⟨frame, handedOut, own⟩
  · rw [notBefore] at atOrBefore
    rcases atOrBefore with same | before
    · exact absurd same different
    · cases before
  · rcases returned_of_handedOut (List.getLast_mem _) handedOut with ⟨now, returned⟩
    rw [← own] at atOrBefore
    exact ⟨now, frame, returned, atOrBefore⟩

theorem lateIsPlayed_of_unmuted_example :
    LateIsPlayed (.linear _) { kind := .audio }
      [.push { timestamp := 1 } 0, .pop 50000000, .push { timestamp := 1 } 50000000] := by
  have gone :
      departures (.linear _) { kind := .audio } [.push { timestamp := 1 } 0, .pop 50000000] =
      [⟨1, some { kind := .audio, audioCodec := .opus, rtpTimestamp := 1 }⟩] := by
    decide
  apply lateIsPlayed_of_unmuted
  intro past event isPrefix
  rcases past with _ | ⟨first, _ | ⟨second, _ | ⟨third, past⟩⟩⟩ <;>
    simp only [List.cons_append, List.nil_append, List.cons_prefix_cons, List.prefix_nil,
      List.append_eq_nil_iff, List.cons_ne_nil, and_false, List.nil_prefix, and_true] at isPrefix
  · rw [isPrefix]
    intro last isLast
    cases isLast
  · rw [isPrefix.2]
    trivial
  · rcases isPrefix with ⟨rfl, rfl, rfl⟩
    rw [gone]
    intro last isLast
    cases isLast
    exact .inr ⟨_, rfl, rfl⟩

/-- One stray packet far ahead is never played out, for its frame has no marker,
and yet what comes after it is refused. -/
theorem stray_packet_mutes :
    ¬ ∀ (search : FrameSearch) (config : JitterBufferConfig) (events : List Event),
      LateIsPlayed search config events := by
  intro always
  have played := always (.linear _) {} [.push { timestamp := 0x40000000 } 0, .pop 50000000,
    .push { timestamp := 3000, marker := true } 50000000]
    [.push { timestamp := 0x40000000 } 0, .pop 50000000]
    { timestamp := 3000, marker := true } 50000000 (List.prefix_refl _) (by decide)
  rcases played with ⟨now, frame, returned, _⟩
  have none : (machine (.linear _) {}).transcript
        [.push { timestamp := 0x40000000 } 0, .pop 50000000] =
      [(.push { timestamp := 0x40000000 } 0, .pushed true), (.pop 50000000, .popped none)] := by
    decide
  rw [none] at returned
  simp at returned

end Vela.JitterBuffer
