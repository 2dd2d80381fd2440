import Vela.Network.JitterBuffer

/-! # What one push and one pop do

The outcomes of a push, the way of a pop through the pending frames, and the
rules that carry a property of every pending frame from step to step. -/

namespace Vela

open Foundation SerialNumber

theorem tsLessThan_eq_precedes : tsLessThan = precedes := by
  funext a b
  have same : (b - a < 0x80000000) = (forward a b < half 32) := rfl
  simp only [tsLessThan, precedes, same]

theorem seqLessThan_eq_precedes : seqLessThan = precedes := by
  funext a b
  have same : (b - a < 0x8000) = (forward a b < half 16) := rfl
  simp only [seqLessThan, precedes, same]

theorem seqKeyLess_strict (keys : List (BitVec 16)) : StrictOrderOn seqKeyLess keys :=
  StrictOrderOn.of_measure BitVec.toNat (fun _ _ => BitVec.eq_of_toNat_eq)
    (fun _ _ => decide_eq_true_iff) keys

namespace PendingFrame

variable (frame : PendingFrame) (packet : RtpPacket) (seq : BitVec 16)

@[simp] theorem anchor_packets (timestamp : BitVec 32) (arrival : SteadyTime) :
    (frame.anchor timestamp arrival).packets = frame.packets := by
  unfold anchor
  split <;> rfl

@[simp] theorem trackSeq_packets : (frame.trackSeq seq).packets = frame.packets := by
  unfold trackSeq
  split <;> rfl

@[simp] theorem trackSeq_timestamp : (frame.trackSeq seq).timestamp = frame.timestamp := by
  unfold trackSeq
  split <;> rfl

@[simp] theorem trackSeq_firstArrival : (frame.trackSeq seq).firstArrival = frame.firstArrival := by
  unfold trackSeq
  split <;> rfl

@[simp] theorem trackSeq_hasMarker : (frame.trackSeq seq).hasMarker = frame.hasMarker := by
  unfold trackSeq
  split <;> rfl

@[simp] theorem insert_packets :
    (frame.insert packet).packets = frame.packets.store packet.sequenceNumber packet := by
  simp [insert]

@[simp] theorem insert_timestamp : (frame.insert packet).timestamp = frame.timestamp := by
  simp [insert]

@[simp] theorem insert_firstArrival :
    (frame.insert packet).firstArrival = frame.firstArrival := by
  simp [insert]

@[simp] theorem insert_hasMarker :
    (frame.insert packet).hasMarker = (frame.hasMarker || packet.marker) := by
  simp [insert]

end PendingFrame

namespace JitterBuffer

variable {buffer : JitterBuffer} {packet : RtpPacket} {arrival : SteadyTime}

/-! ## Push -/

/-- A frame of the map, or a fresh one for a timestamp without a slot. -/
theorem pending_cases (buffer : JitterBuffer) (timestamp : BitVec 32) (arrival : SteadyTime) :
    (buffer.frames.find? timestamp = none ∧
      buffer.pending timestamp arrival = { timestamp, firstArrival := arrival }) ∨
    ∃ slot frame, (slot, frame) ∈ buffer.frames.entries ∧
      buffer.frames.find? timestamp = some frame ∧
      (frame.packets.entries ≠ [] → buffer.pending timestamp arrival = frame) := by
  cases found : buffer.frames.find? timestamp with
  | none =>
      left
      refine ⟨rfl, ?_⟩
      rw [pending, found]
      rfl
  | some frame =>
      right
      rcases OrderedMap.exists_mem_of_find? found with ⟨slot, member⟩
      refine ⟨slot, frame, member, rfl, fun filled => ?_⟩
      rw [pending, found, Option.getD_some, PendingFrame.anchor,
        List.isEmpty_eq_false_iff.mpr filled]
      rfl

/-- A frame that holds a number is one of the map's. -/
theorem find?_of_holds {timestamp : BitVec 32} {seq : BitVec 16}
    (holds : (buffer.pending timestamp arrival).holds seq = true) :
    buffer.frames.find? timestamp = some (buffer.pending timestamp arrival) := by
  cases found : buffer.frames.find? timestamp with
  | none =>
      rw [pending, found] at holds
      cases holds
  | some frame =>
      by_cases filled : frame.packets.entries = []
      · have vacant := OrderedMap.find?_of_nil filled seq
        rw [pending, found, Option.getD_some, PendingFrame.anchor, filled] at holds
        rw [List.isEmpty_nil, if_pos rfl, PendingFrame.holds, vacant] at holds
        cases holds
      · rw [pending, found, Option.getD_some, PendingFrame.anchor,
          List.isEmpty_eq_false_iff.mpr filled]
        rfl

/-- A packet is refused as late or as a duplicate, and then only counted, or it
is stored in the pending frame of its timestamp. -/
theorem push_cases (buffer : JitterBuffer) (packet : RtpPacket) (arrival : SteadyTime) :
    (∃ stats, buffer.push packet arrival = ({ buffer with stats }, false) ∧
      (buffer.isLate packet.timestamp = true ∨
        (buffer.pending packet.timestamp arrival).holds packet.sequenceNumber = true)) ∨
    (∃ stats, buffer.push packet arrival =
        ({ buffer with
            stats
            frames := buffer.frames.store packet.timestamp
              ((buffer.pending packet.timestamp arrival).insert packet) }, true) ∧
      buffer.isLate packet.timestamp = false ∧
      (buffer.pending packet.timestamp arrival).holds packet.sequenceNumber = false) := by
  rw [push]
  cases late : buffer.isLate packet.timestamp with
  | true => exact .inl ⟨_, rfl, .inl rfl⟩
  | false =>
      cases holds : (buffer.pending packet.timestamp arrival).holds packet.sequenceNumber with
      | true =>
          left
          simp only [Bool.false_eq_true, if_false, holds, if_true,
            OrderedMap.store_found (find?_of_holds holds)]
          exact ⟨_, rfl, .inr trivial⟩
      | false =>
          right
          simp only [Bool.false_eq_true, if_false, holds]
          exact ⟨_, rfl, trivial, trivial⟩

/-! ## Pop -/

theorem delayElapsed_iff {config : JitterBufferConfig} {now : SteadyTime} {frame : PendingFrame} :
    delayElapsed config now frame = true ↔ frame.firstArrival + config.targetDelay ≤ now := by
  rw [delayElapsed, decide_eq_true_eq]
  constructor
  · intro elapsed
    exact Int.add_le_of_le_sub_left elapsed
  · intro due
    exact Int.le_sub_left_of_add_le due

/-- The frame that a pending frame is played out as, if it can be. -/
def playable (config : JitterBufferConfig) (frame : PendingFrame) : Option EncodedFrame :=
  if isComplete config frame then (assemble config frame).toOption else none

/-- `frame` is the pending frame that a pop at `now` comes to a stop at, past
older ones that it drops. -/
def Reaches (buffer : JitterBuffer) (now : SteadyTime) (frame : PendingFrame) : Prop :=
  ∃ key before after, buffer.frames.entries = before ++ (key, frame) :: after ∧
    delayElapsed buffer.config now frame = true ∧
    ∀ older ∈ before, delayElapsed buffer.config now older.2 = true ∧
      playable buffer.config older.2 = none

theorem popLoop_cons (now : SteadyTime) (key : BitVec 32) (frame : PendingFrame)
    (rest : List (BitVec 32 × PendingFrame)) (buffer : JitterBuffer) :
    popLoop now ((key, frame) :: rest) buffer =
      if delayElapsed buffer.config now frame then
        match playable buffer.config frame with
        | none => popLoop now rest (buffer.advance frame rest)
        | some encoded =>
            ({ buffer.advance frame rest with
                stats := { buffer.stats with emitted := buffer.stats.emitted + 1 } },
              some encoded)
      else (buffer, none) := by
  rw [popLoop, playable]
  cases delayElapsed buffer.config now frame with
  | false => rfl
  | true =>
      cases isComplete buffer.config frame with
      | false => rfl
      | true =>
          cases assemble buffer.config frame with
          | error fault => rfl
          | ok encoded => rfl

/-- A property kept by leaving out the oldest frame, whatever the counters say,
is kept by a pop. -/
theorem pop_preserves {Property : JitterBuffer → Prop}
    (counted : ∀ (buffer : JitterBuffer) (stats : JitterStats),
      Property buffer → Property { buffer with stats })
    (advanced : ∀ (buffer : JitterBuffer) (key : BitVec 32) (frame : PendingFrame)
      (rest : List (BitVec 32 × PendingFrame)),
      buffer.frames.entries = (key, frame) :: rest → Property buffer →
        Property (buffer.advance frame rest))
    {buffer : JitterBuffer} (holds : Property buffer) (now : SteadyTime) :
    Property (buffer.pop now).1 := by
  have loop : ∀ (entries : List (BitVec 32 × PendingFrame)) (buffer : JitterBuffer),
      buffer.frames.entries = entries → Property buffer →
        Property (popLoop now entries buffer).1 := by
    intro entries
    induction entries with
    | nil => exact fun buffer _ holds => holds
    | cons entry rest induction =>
        intro buffer same holds
        rcases entry with ⟨key, frame⟩
        have next := advanced buffer key frame rest same holds
        rw [popLoop_cons]
        split
        · split
          · exact induction (buffer.advance frame rest) rfl next
          · exact counted _ _ next
        · exact holds
  exact loop buffer.frames.entries buffer rfl holds

/-- A pop that gets past the front frame, or to it, has seen its delay elapse. -/
theorem reaches_cons {buffer : JitterBuffer} {now : SteadyTime} {key : BitVec 32}
    {front frame : PendingFrame} {rest : List (BitVec 32 × PendingFrame)}
    (entries : buffer.frames.entries = (key, front) :: rest) :
    buffer.Reaches now frame ↔
      delayElapsed buffer.config now front = true ∧
        (frame = front ∨
          playable buffer.config front = none ∧ (buffer.advance front rest).Reaches now frame) := by
  constructor
  · rintro ⟨other, before, after, split, due, older⟩
    rw [entries] at split
    cases before with
    | nil =>
        cases split
        exact ⟨due, .inl rfl⟩
    | cons head before =>
        cases split
        rcases older (key, front) List.mem_cons_self with ⟨elapsed, skipped⟩
        exact ⟨elapsed, .inr ⟨skipped, other, before, after, rfl, due, fun entry member =>
          older entry (List.mem_cons_of_mem _ member)⟩⟩
  · rintro ⟨elapsed, here | ⟨skipped, other, before, after, split, due, older⟩⟩
    · rw [here]
      exact ⟨key, [], rest, entries, elapsed, fun _ member => nomatch member⟩
    · refine ⟨other, (key, front) :: before, after, ?_, due, ?_⟩
      · rw [entries]
        exact congrArg ((key, front) :: ·) split
      · intro entry member
        rcases List.mem_cons.mp member with isFront | inBefore
        · rw [isFront]
          exact ⟨elapsed, skipped⟩
        · exact older entry inBefore

/-- A pop returns what the first playable frame that it reaches is played out
as. -/
theorem pop_eq_some_iff {now : SteadyTime} {encoded : EncodedFrame} :
    (buffer.pop now).2 = some encoded ↔
      ∃ frame, buffer.Reaches now frame ∧ playable buffer.config frame = some encoded := by
  have loop : ∀ (entries : List (BitVec 32 × PendingFrame)) (buffer : JitterBuffer),
      buffer.frames.entries = entries →
        ((popLoop now entries buffer).2 = some encoded ↔
          ∃ frame, buffer.Reaches now frame ∧ playable buffer.config frame = some encoded) := by
    intro entries
    induction entries with
    | nil =>
        intro buffer same
        refine ⟨nofun, ?_⟩
        rintro ⟨frame, ⟨key, before, after, split, _⟩, _⟩
        rw [same] at split
        cases before <;> cases split
    | cons entry rest induction =>
        intro buffer same
        rcases entry with ⟨key, front⟩
        rw [popLoop_cons]
        simp only [reaches_cons same]
        by_cases elapsed : delayElapsed buffer.config now front = true
        · rw [if_pos elapsed]
          cases plays : playable buffer.config front with
          | none =>
              rw [induction (buffer.advance front rest) rfl]
              constructor
              · rintro ⟨frame, reached, result⟩
                exact ⟨frame, ⟨elapsed, .inr ⟨rfl, reached⟩⟩, result⟩
              · rintro ⟨frame, ⟨_, here | ⟨_, reached⟩⟩, result⟩
                · rw [here, plays] at result
                  cases result
                · exact ⟨frame, reached, result⟩
          | some playedOut =>
              constructor
              · intro result
                cases result
                exact ⟨front, ⟨elapsed, .inl rfl⟩, plays⟩
              · rintro ⟨frame, ⟨_, here | ⟨skipped, _⟩⟩, result⟩
                · rw [here, plays] at result
                  exact result
                · cases skipped
        · rw [if_neg elapsed]
          refine ⟨nofun, ?_⟩
          rintro ⟨frame, ⟨due, _⟩, _⟩
          exact absurd due elapsed
  exact loop buffer.frames.entries buffer rfl

/-! ## The configuration -/

@[simp] theorem push_config : (buffer.push packet arrival).1.config = buffer.config := by
  rcases push_cases buffer packet arrival with ⟨_, refused, _⟩ | ⟨_, accepted, _⟩
  · rw [refused]
  · rw [accepted]

@[simp] theorem pop_config (buffer : JitterBuffer) (now : SteadyTime) :
    (buffer.pop now).1.config = buffer.config := by
  apply @pop_preserves fun after => after.config = buffer.config
  · exact fun _ _ same => same
  · exact fun _ _ _ _ _ same => same
  · rfl

theorem run_config (search : FrameSearch) (config : JitterBufferConfig) (events : List Event) :
    ((machine search config).run events).config = config := by
  apply @Machine.invariant _ _ _ (machine search config) fun after => after.config = config
  · rfl
  · intro buffer event same
    cases event with
    | push packet arrival => exact push_config.trans same
    | pop now => exact (pop_config buffer now).trans same

/-! ## Properties of every pending frame -/

def EveryFrame (Property : PendingFrame → Prop) (buffer : JitterBuffer) : Prop :=
  ∀ entry ∈ buffer.frames.entries, Property entry.2

namespace EveryFrame

variable {Property : PendingFrame → Prop}

theorem pop (every : EveryFrame Property buffer) (now : SteadyTime) :
    EveryFrame Property (buffer.pop now).1 := by
  apply @pop_preserves (EveryFrame Property)
  · exact fun _ _ holds => holds
  · intro buffer key frame rest split holds entry member
    apply holds
    rw [split]
    exact List.mem_cons_of_mem _ member
  · exact every

/-- Only the frame that a packet is stored in changes. -/
theorem store_iff (every : EveryFrame Property buffer) (timestamp : BitVec 32)
    (frame : PendingFrame) (stats : JitterStats) :
    EveryFrame Property
        { buffer with stats, frames := buffer.frames.store timestamp frame } ↔
      Property frame := by
  constructor
  · intro all
    rcases buffer.frames.exists_mem_store timestamp frame with ⟨slot, member, _⟩
    exact all _ member
  · intro holds entry member
    rcases OrderedMap.mem_store_cases member with old | ⟨_, new⟩ | ⟨slot, _, _, _, _, _, new⟩
    · exact every entry old
    · rw [new]
      exact holds
    · rw [new]
      exact holds

end EveryFrame

end JitterBuffer

end Vela
