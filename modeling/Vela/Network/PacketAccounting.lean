import Vela.Network.Departures
import Vela.Network.JitterBufferCompleteness

/-! # Packet accounting

Every push is counted once, as accepted, as a duplicate or as late, and an
accepted packet stays in its pending frame until that frame leaves the buffer.
A refused push only counts. -/

namespace Vela

open Foundation

namespace PendingFrame

/-- A packet whose number is not held yet adds one. -/
theorem insert_size {frame : PendingFrame} {packet : RtpPacket}
    (absent : frame.holds packet.sequenceNumber = false) :
    (frame.insert packet).packets.size = frame.packets.size + 1 := by
  rw [holds] at absent
  rw [insert_packets, OrderedMap.size_store, absent]
  rfl

end PendingFrame

namespace JitterBuffer

variable {search : FrameSearch} {config : JitterBufferConfig} {buffer : JitterBuffer}
  {packet : RtpPacket}
  {arrival : SteadyTime}

/-! ## Where the packets are -/

/-- The packets of several frames. -/
def packetsOf (frames : List PendingFrame) : Nat := (frames.map fun frame => frame.packets.size).sum

def pendingFrames (buffer : JitterBuffer) : List PendingFrame := buffer.frames.entries.map Prod.snd

/-- The frames that the loop of `pop` takes out of the map: those it drops or
skips, and the one it hands out. -/
def takenLoop (config : JitterBufferConfig) (now : SteadyTime) :
    List (BitVec 32 × PendingFrame) → List PendingFrame
  | [] => []
  | (_, frame) :: rest =>
      if delayElapsed config now frame then
        frame :: if (playable config frame).isSome then [] else takenLoop config now rest
      else []

def taking (buffer : JitterBuffer) : Event → List PendingFrame
  | .push _ _ => []
  | .pop now => takenLoop buffer.config now buffer.frames.entries

/-- The buffer, observed by the frames that are taken out of it. -/
def emptied (search : FrameSearch) (config : JitterBufferConfig) :
    Machine JitterBuffer Event (List PendingFrame) where
  initial := create search config
  step := fun buffer event => ((buffer.step event).1, buffer.taking event)

/-- The frames that a run has emitted, dropped or skipped. -/
def takenOut (search : FrameSearch) (config : JitterBufferConfig) (events : List Event) :
    List PendingFrame :=
  ((emptied search config).outputs events).flatten

@[simp] theorem takenOut_nil (search : FrameSearch) (config : JitterBufferConfig) :
    takenOut search config [] = [] := rfl

@[simp] theorem takenOut_snoc (search : FrameSearch) (config : JitterBufferConfig)
    (events : List Event) (event : Event) :
    takenOut search config (events ++ [event]) =
      takenOut search config events ++ ((machine search config).run events).taking event := by
  rw [takenOut, Machine.outputs_snoc, List.flatten_append, List.flatten_singleton]
  rfl

@[simp] theorem packetsOf_append (first second : List PendingFrame) :
    packetsOf (first ++ second) = packetsOf first + packetsOf second := by
  simp [packetsOf]

/-! ## Push -/

/-- A refused push counts once, as late or as a duplicate, and does nothing else. -/
theorem push_refused (refused : (buffer.push packet arrival).2 = false) :
    (buffer.push packet arrival).1 =
        { buffer with stats := { buffer.stats with late := buffer.stats.late + 1 } } ∨
      (buffer.push packet arrival).1 =
        { buffer with stats := { buffer.stats with
            duplicates := buffer.stats.duplicates + 1 } } := by
  rw [push] at refused ⊢
  cases late : buffer.isLate packet.timestamp with
  | true => exact .inl rfl
  | false =>
      simp only [late, Bool.false_eq_true, if_false] at refused ⊢
      cases holds : (buffer.pending packet.timestamp arrival).holds packet.sequenceNumber with
      | true =>
          right
          simp only [if_true, OrderedMap.store_found (find?_of_holds holds)]
      | false =>
          rw [holds] at refused
          cases refused

/-- An accepted push counts once and adds one packet to the pending frames. -/
theorem push_accepted (accepted : (buffer.push packet arrival).2 = true) :
    (buffer.push packet arrival).1.stats.pushed = buffer.stats.pushed + 1 ∧
      (buffer.push packet arrival).1.stats.duplicates = buffer.stats.duplicates ∧
      (buffer.push packet arrival).1.stats.late = buffer.stats.late ∧
      packetsOf (buffer.push packet arrival).1.pendingFrames =
        packetsOf buffer.pendingFrames + 1 := by
  rw [push] at accepted ⊢
  cases late : buffer.isLate packet.timestamp with
  | true => simp only [late, if_true, Bool.false_eq_true] at accepted
  | false =>
      simp only [late, Bool.false_eq_true, if_false] at accepted ⊢
      cases holds : (buffer.pending packet.timestamp arrival).holds packet.sequenceNumber with
      | true => simp only [holds, if_true, Bool.false_eq_true] at accepted
      | false =>
          simp only [Bool.false_eq_true, if_false]
          refine ⟨trivial, trivial, trivial, ?_⟩
          have total := buffer.frames.sum_store (fun frame => frame.packets.size)
            packet.timestamp ((buffer.pending packet.timestamp arrival).insert packet)
          have found : (buffer.pending packet.timestamp arrival).packets.size =
              ((buffer.frames.find? packet.timestamp).map fun frame =>
                frame.packets.size).getD 0 := by
            rw [pending, PendingFrame.anchor_packets]
            cases buffer.frames.find? packet.timestamp <;> rfl
          rw [PendingFrame.insert_size holds] at total
          simp only [packetsOf, pendingFrames, List.map_map, Function.comp_def]
          omega

/-! ## Pop -/

/-- A pop counts no push and takes the oldest frames out as they are. -/
theorem pop_taking (buffer : JitterBuffer) (now : SteadyTime) :
    buffer.pendingFrames = buffer.taking (.pop now) ++ (buffer.pop now).1.pendingFrames ∧
      (buffer.pop now).1.stats.pushed = buffer.stats.pushed ∧
      (buffer.pop now).1.stats.duplicates = buffer.stats.duplicates ∧
      (buffer.pop now).1.stats.late = buffer.stats.late := by
  have loop : ∀ (entries : List (BitVec 32 × PendingFrame)) (buffer : JitterBuffer),
      buffer.frames.entries = entries →
        entries.map Prod.snd = takenLoop buffer.config now entries ++
            (popLoop now entries buffer).1.pendingFrames ∧
          (popLoop now entries buffer).1.stats.pushed = buffer.stats.pushed ∧
          (popLoop now entries buffer).1.stats.duplicates = buffer.stats.duplicates ∧
          (popLoop now entries buffer).1.stats.late = buffer.stats.late := by
    intro entries
    induction entries with
    | nil =>
        intro buffer same
        simp [popLoop, takenLoop, pendingFrames, same]
    | cons entry rest induction =>
        intro buffer same
        rcases entry with ⟨key, frame⟩
        rw [popLoop_cons, takenLoop]
        cases delayElapsed buffer.config now frame with
        | false =>
            simp [pendingFrames, same]
        | true =>
            cases playable buffer.config frame with
            | some encoded => exact ⟨rfl, rfl, rfl, rfl⟩
            | none =>
                rcases induction (buffer.advance frame rest) rfl with ⟨split, counts⟩
                exact ⟨congrArg (frame :: ·) split, counts⟩
  exact loop buffer.frames.entries buffer rfl

/-! ## Runs -/

/-- The push calls of a run. -/
def pushCalls (events : List Event) : Nat :=
  events.countP fun event => match event with
    | .push _ _ => true
    | .pop _ => false

/-- The counters hold what was accepted and what was refused, as far as their 64
bits go, and what was accepted is still there or has been taken out. -/
def Accounted (search : FrameSearch) (config : JitterBufferConfig) (events : List Event)
    (buffer : JitterBuffer) : Prop :=
  ∃ accepted duplicates late : Nat,
    accepted + duplicates + late = pushCalls events ∧
    accepted = packetsOf buffer.pendingFrames + packetsOf (takenOut search config events) ∧
    buffer.stats.pushed = BitVec.ofNat 64 accepted ∧
    buffer.stats.duplicates = BitVec.ofNat 64 duplicates ∧
    buffer.stats.late = BitVec.ofNat 64 late

theorem accounted_run (search : FrameSearch) (config : JitterBufferConfig) (events : List Event) :
    Accounted search config events ((machine search config).run events) := by
  apply @Machine.history_invariant _ _ _ (machine search config) (Accounted search config)
  · exact ⟨0, 0, 0, rfl, rfl, rfl, rfl, rfl⟩
  · rintro past event ⟨accepted, duplicates, late, calls, whereabouts, pushedIs, duplicatesIs,
      lateIs⟩
    cases event with
    | pop now =>
        rcases pop_taking ((machine search config).run past) now with
          ⟨split, samePushed, sameDuplicates, sameLate⟩
        refine ⟨accepted, duplicates, late, ?_, ?_, ?_⟩
        · simpa [pushCalls] using calls
        · rw [takenOut_snoc, packetsOf_append, whereabouts, split, packetsOf_append]
          change _ = packetsOf (((machine search config).run past).pop now).1.pendingFrames + _
          omega
        · exact ⟨samePushed.trans pushedIs, sameDuplicates.trans duplicatesIs,
            sameLate.trans lateIs⟩
    | push packet arrival =>
        have oneMore : pushCalls (past ++ [.push packet arrival]) = pushCalls past + 1 := by
          simp [pushCalls]
        have noneTaken : takenOut search config (past ++ [.push packet arrival]) =
            takenOut search config past := by
          rw [takenOut_snoc, taking, List.append_nil]
        have after : (machine search config).next ((machine search config).run past)
              (.push packet arrival) =
            (((machine search config).run past).push packet arrival).1 := rfl
        rw [Accounted, oneMore, noneTaken, after]
        cases verdict : (((machine search config).run past).push packet arrival).2 with
        | true =>
            rcases push_accepted verdict with ⟨counted, sameDuplicates, sameLate, added⟩
            refine ⟨accepted + 1, duplicates, late, by omega, by omega, ?_, ?_, ?_⟩
            · rw [counted, pushedIs, BitVec.ofNat_add]
              rfl
            · rw [sameDuplicates, duplicatesIs]
            · rw [sameLate, lateIs]
        | false =>
            rcases push_refused verdict with isLate | isDuplicate
            · rw [isLate]
              refine ⟨accepted, duplicates, late + 1, by omega, whereabouts, pushedIs,
                duplicatesIs, ?_⟩
              rw [BitVec.ofNat_add, ← lateIs]
              rfl
            · rw [isDuplicate]
              refine ⟨accepted, duplicates + 1, late, by omega, whereabouts, pushedIs, ?_, lateIs⟩
              rw [BitVec.ofNat_add, ← duplicatesIs]
              rfl

/-- A refused push leaves the frames and the late mark as they were and counts
once, no pending frame is empty, and the counters account for every push call:
exactly, as long as 64 bits count the calls, and modulo `2 ^ 64` after that. -/
theorem packets_accounted (search : FrameSearch) (config : JitterBufferConfig)
    (events : List Event) :
    let buffer := (machine search config).run events
    (∀ packet arrival, (buffer.push packet arrival).2 = false →
      let after := (buffer.push packet arrival).1
      after.frames = buffer.frames ∧ after.hasEmitted = buffer.hasEmitted ∧
        after.lastEmittedTs = buffer.lastEmittedTs ∧
        (after.stats.late = buffer.stats.late + 1 ∧
            after.stats.duplicates = buffer.stats.duplicates ∨
          after.stats.late = buffer.stats.late ∧
            after.stats.duplicates = buffer.stats.duplicates + 1)) ∧
    (∀ entry ∈ buffer.frames.entries, entry.2.packets.entries ≠ []) ∧
    (buffer.stats.pushed + buffer.stats.duplicates + buffer.stats.late =
        BitVec.ofNat 64 (pushCalls events) ∧
      buffer.stats.pushed = BitVec.ofNat 64
        (packetsOf buffer.pendingFrames + packetsOf (takenOut search config events))) ∧
    (pushCalls events < 2 ^ 64 →
      buffer.stats.pushed.toNat + buffer.stats.duplicates.toNat + buffer.stats.late.toNat =
          pushCalls events ∧
        buffer.stats.pushed.toNat =
          packetsOf buffer.pendingFrames + packetsOf (takenOut search config events)) := by
  intro buffer
  rcases accounted_run search config events with
    ⟨accepted, duplicates, late, calls, whereabouts, pushedIs, duplicatesIs, lateIs⟩
  refine ⟨?_, fun entry member => (filed_run search config events entry member).nonempty,
    ⟨?_, ?_⟩, ?_⟩
  · intro packet arrival refused
    rcases push_refused refused with isLate | isDuplicate
    · rw [isLate]
      exact ⟨rfl, rfl, rfl, .inl ⟨rfl, rfl⟩⟩
    · rw [isDuplicate]
      exact ⟨rfl, rfl, rfl, .inr ⟨rfl, rfl⟩⟩
  · rw [pushedIs, duplicatesIs, lateIs, ← calls, BitVec.ofNat_add, BitVec.ofNat_add]
  · rw [pushedIs, whereabouts]
  · intro few
    rw [pushedIs, duplicatesIs, lateIs]
    simp only [BitVec.toNat_ofNat]
    rw [Nat.mod_eq_of_lt (show accepted < 2 ^ 64 by omega),
      Nat.mod_eq_of_lt (show duplicates < 2 ^ 64 by omega),
      Nat.mod_eq_of_lt (show late < 2 ^ 64 by omega)]
    exact ⟨calls, whereabouts⟩

/-- One packet pushed `2 ^ 66` times makes more calls than the three counters can
add up to. -/
theorem counters_wrap :
    ¬ ∀ (search : FrameSearch) (config : JitterBufferConfig) (events : List Event),
      let stats := ((machine search config).run events).stats
      stats.pushed.toNat + stats.duplicates.toNat + stats.late.toNat = pushCalls events := by
  intro always
  have calls : ∀ count, pushCalls (List.replicate count (.push {} 0)) = count := by
    intro count
    simp [pushCalls, List.countP_replicate]
  have counted := always (.linear _) {} (List.replicate (2 ^ 66) (.push {} 0))
  rw [calls] at counted
  generalize ((machine (.linear _) {}).run (List.replicate (2 ^ 66) (.push {} 0))).stats = stats
    at counted
  have pushedBound := stats.pushed.isLt
  have duplicatesBound := stats.duplicates.isLt
  have lateBound := stats.late.isLt
  omega

end JitterBuffer

end Vela
