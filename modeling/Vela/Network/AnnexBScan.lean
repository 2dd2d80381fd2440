import Mathlib.Data.List.Infix
import Vela.Network.Datagram
import Vela.Network.SentUnits

/-! # Scanning an Annex-B stream

A stream of NAL units behind start codes of three or four bytes. The scan finds
every unit again, so a stream is packetized and reassembled to the same units. -/

namespace Vela.RTPHandler

open Foundation RtpPacket

/-! ## Streams -/

/-- A NAL unit behind a start code of three or four bytes. -/
structure CodedUnit where
  longCode : Bool
  nal : Bytes
  deriving DecidableEq, Repr

namespace CodedUnit

def startCode (unit : CodedUnit) : Bytes :=
  if unit.longCode then [0, 0, 0, 1] else [0, 0, 1]

def bytes (unit : CodedUnit) : Bytes := unit.startCode ++ unit.nal

end CodedUnit

def stream (units : List CodedUnit) : Bytes := units.flatMap CodedUnit.bytes

/-- No start code can begin inside of these bytes, whatever comes after them. -/
structure CodeFree (nal : Bytes) : Prop where
  noStartCode : ¬[0, 0, 1] <:+: nal
  lastNonzero : nal.getLast? ≠ some 0

/-- The NAL units that start codes can separate. -/
structure Separable (nal : Bytes) : Prop extends CodeFree nal where
  nonempty : nal ≠ []

/-! ## Where start codes are -/

theorem CodeFree.tail {byte : Byte} {rest : Bytes} (free : CodeFree (byte :: rest)) :
    CodeFree rest := by
  constructor
  · intro inside
    exact free.noStartCode (inside.trans (List.suffix_cons byte rest).isInfix)
  · intro last
    cases rest with
    | nil => cases last
    | cons next rest =>
        apply free.lastNonzero
        rwa [List.getLast?_cons_cons]

def beginsCode : Bytes → Bool
  | first :: second :: third :: _ => first == 0 && second == 0 && third == 1
  | _ => false

theorem CodeFree.not_beginsCode {byte : Byte} {rest : Bytes} (free : CodeFree (byte :: rest))
    (after : Bytes) : beginsCode (byte :: rest ++ after) = false := by
  rw [Bool.eq_false_iff]
  intro begins
  match rest, free, begins with
  | [], free, begins =>
      cases after with
      | nil => cases begins
      | cons second after =>
          cases after with
          | nil => cases begins
          | cons third after =>
              simp [beginsCode] at begins
              apply free.lastNonzero
              simp [begins]
  | [second], free, begins =>
      cases after with
      | nil => cases begins
      | cons third after =>
          simp [beginsCode] at begins
          apply free.lastNonzero
          simp [begins]
  | second :: third :: rest, free, begins =>
      simp [beginsCode] at begins
      rcases begins with ⟨⟨rfl, rfl⟩, rfl⟩
      exact free.noStartCode ⟨[], rest, rfl⟩

theorem byteAt_add (before rest : Bytes) (offset : Nat) :
    byteAt (before ++ rest) (before.length + offset) = byteAt rest offset := by
  rw [byteAt, byteAt, List.getElem?_append_right (Nat.le_add_right _ _), Nat.add_sub_cancel_left]

theorem startCodeAt_append (before : Bytes) {rest : Bytes} (long : 3 ≤ rest.length) :
    startCodeAt (before ++ rest) before.length = .ok (beginsCode rest) := by
  match rest, long with
  | first :: second :: third :: rest, _ =>
      have firstRead := byteAt_add before (first :: second :: third :: rest) 0
      have secondRead := byteAt_add before (first :: second :: third :: rest) 1
      have thirdRead := byteAt_add before (first :: second :: third :: rest) 2
      rw [Nat.add_zero] at firstRead
      rw [startCodeAt, firstRead, secondRead, thirdRead]
      by_cases firstZero : first = 0#8 <;> by_cases secondZero : second = 0#8 <;>
        simp [byteAt, beginsCode, firstZero, secondZero, pure, Except.pure]

/-! ## Steps of the scan -/

variable (before : Bytes) (iterations : Nat) (markers : List Marker)

/-- Without a start code here the scan moves on by a byte. -/
theorem findMarkers_skip (byte : Byte) (rest : Bytes)
    (noCode : beginsCode (byte :: rest) = false) :
    findMarkers (before ++ byte :: rest) (iterations + 1) before.length markers =
      findMarkers (before ++ byte :: rest) iterations (before.length + 1) markers := by
  rw [findMarkers]
  by_cases room : before.length + 3 ≤ (before ++ byte :: rest).length
  · have long : 3 ≤ (byte :: rest).length := by
      rw [List.length_append] at room
      omega
    rw [if_pos room, startCodeAt_append before long, noCode]
    rfl
  · rw [if_neg room]
    cases iterations with
    | zero => rfl
    | succ iterations =>
        rw [findMarkers, if_neg]
        omega

/-- The scan passes over a NAL unit. -/
theorem findMarkers_nal {nal : Bytes} (free : CodeFree nal) (after : Bytes) :
    findMarkers (before ++ (nal ++ after)) (iterations + nal.length) before.length markers =
      findMarkers (before ++ (nal ++ after)) iterations (before ++ nal).length markers := by
  induction nal generalizing before with
  | nil => simp
  | cons byte rest induction =>
      have step := findMarkers_skip before (iterations + rest.length) markers byte (rest ++ after)
        (free.not_beginsCode after)
      have later := induction (before ++ [byte]) free.tail
      simp only [List.append_assoc, List.singleton_append, List.length_append,
        List.length_singleton] at later
      rw [List.cons_append, List.length_cons, ← Nat.add_assoc, step, later]
      simp only [List.length_append, List.length_cons]

theorem findMarkers_code (rest : Bytes) {codeBegin : Nat}
    (begins : codeBeginAt (before ++ 0 :: 0 :: 1 :: rest) before.length markers = .ok codeBegin) :
    findMarkers (before ++ 0 :: 0 :: 1 :: rest) (iterations + 1) before.length markers =
      findMarkers (before ++ 0 :: 0 :: 1 :: rest) iterations (before.length + 3)
        (markers ++ [⟨codeBegin, before.length + 3⟩]) := by
  have room : before.length + 3 ≤ (before ++ 0 :: 0 :: 1 :: rest).length := by simp
  have found : startCodeAt (before ++ 0 :: 0 :: 1 :: rest) before.length = .ok true :=
    startCodeAt_append before (by simp)
  rw [findMarkers, if_pos room, found, begins]
  rfl

/-! ## Scanning a stream -/

/-- The markers of units after a first one; each code begins where the unit
before it ends. -/
def laterMarkers : (position : Nat) → List CodedUnit → List Marker
  | _, [] => []
  | position, unit :: rest =>
      let bodyBegin := position + unit.startCode.length
      ⟨position, bodyBegin⟩ :: laterMarkers (bodyBegin + unit.nal.length) rest

theorem stream_cons (unit : CodedUnit) (rest : List CodedUnit) :
    stream (unit :: rest) = unit.startCode ++ (unit.nal ++ stream rest) := by
  rw [stream, List.flatMap_cons, CodedUnit.bytes, List.append_assoc]
  rfl

theorem byteAt_last {front : Bytes} {byte : Byte} (rest : Bytes)
    (last : front.getLast? = some byte) :
    byteAt (front ++ rest) (front.length - 1) = .ok byte := by
  rcases List.getLast?_eq_some_iff.mp last with ⟨earlier, rfl⟩
  have here := byteAt_add earlier ([byte] ++ rest) 0
  rw [← List.append_assoc, Nat.add_zero] at here
  rw [List.length_append, List.length_singleton, Nat.add_sub_cancel, here]
  rfl

/-- A code right behind a NAL unit begins there, with its extra zero or without. -/
theorem findMarkers_later_code {front : Bytes} {last : Byte} {back : Marker} (unit : CodedUnit)
    (rest : Bytes) (isLast : front.getLast? = some last) (lastNonzero : last ≠ 0)
    (isBack : markers.getLast? = some back) (behind : back.bodyBegin ≤ front.length) :
    findMarkers (front ++ (unit.startCode ++ rest)) (iterations + unit.startCode.length - 2)
        front.length markers =
      findMarkers (front ++ (unit.startCode ++ rest)) iterations
        (front ++ unit.startCode).length
        (markers ++ [⟨front.length, front.length + unit.startCode.length⟩]) := by
  have positive : 1 ≤ front.length := by
    rcases List.getLast?_eq_some_iff.mp isLast with ⟨earlier, rfl⟩
    simp
  cases code : unit.longCode with
  | false =>
      have begins : codeBeginAt (front ++ 0 :: 0 :: 1 :: rest) front.length markers =
          .ok front.length := by
        have noZero : ¬(last = 0 ∧ back.bodyBegin ≤ front.length - 1) := by
          intro both
          exact lastNonzero both.1
        rw [codeBeginAt, if_pos positive, byteAt_last _ isLast, ok_bind, isBack]
        dsimp only
        rw [if_neg noZero]
        rfl
      have step := findMarkers_code front iterations markers rest begins
      simpa [CodedUnit.startCode, code] using step
  | true =>
      have begins : codeBeginAt ((front ++ [0]) ++ 0 :: 0 :: 1 :: rest) (front ++ [0]).length
          markers = .ok front.length := by
        have zero : (front ++ [0]).getLast? = some (0 : Byte) := by simp
        rw [codeBeginAt, if_pos (by simp), byteAt_last _ zero, ok_bind, isBack]
        simp [behind, pure, Except.pure]
      have skip := findMarkers_skip front (iterations + 1) markers 0 (0 :: 0 :: 1 :: rest) rfl
      have step := findMarkers_code (front ++ [0]) iterations markers rest begins
      simp only [List.append_assoc, List.singleton_append, List.length_append,
        List.length_singleton] at step
      simpa [CodedUnit.startCode, code] using skip.trans step

theorem findMarkers_later {front : Bytes} {last : Byte} {back : Marker} (units : List CodedUnit)
    (separable : ∀ unit ∈ units, Separable unit.nal) (isLast : front.getLast? = some last)
    (lastNonzero : last ≠ 0) (isBack : markers.getLast? = some back)
    (behind : back.bodyBegin ≤ front.length) (enough : (stream units).length ≤ iterations) :
    findMarkers (front ++ stream units) iterations front.length markers =
      .ok (markers ++ laterMarkers front.length units) := by
  induction units generalizing front last back iterations markers with
  | nil =>
      cases iterations with
      | zero => simp [findMarkers, laterMarkers, pure, Except.pure]
      | succ iterations => simp [findMarkers, laterMarkers, stream, pure, Except.pure]
  | cons unit rest induction =>
      have unitSeparable := separable unit List.mem_cons_self
      rw [stream_cons] at enough ⊢
      simp only [List.length_append] at enough
      have codeLength : 3 ≤ unit.startCode.length := by
        rw [CodedUnit.startCode]
        split <;> simp
      rcases Nat.exists_eq_add_of_le
        (show unit.startCode.length - 2 + unit.nal.length ≤ iterations by omega) with ⟨left, rfl⟩
      have sum : unit.startCode.length - 2 + unit.nal.length + left =
          left + unit.nal.length + unit.startCode.length - 2 := by
        omega
      rw [sum, findMarkers_later_code _ _ unit _ isLast lastNonzero isBack behind,
        ← List.append_assoc, findMarkers_nal _ _ _ unitSeparable.toCodeFree, ← List.append_assoc]
      have newLast : (front ++ unit.startCode ++ unit.nal).getLast? =
          some (unit.nal.getLast unitSeparable.nonempty) := by
        rw [List.getLast?_append_of_ne_nil _ unitSeparable.nonempty,
          List.getLast?_eq_some_getLast unitSeparable.nonempty]
      have newLastNonzero : unit.nal.getLast unitSeparable.nonempty ≠ 0 := by
        intro zero
        apply unitSeparable.lastNonzero
        rw [List.getLast?_eq_some_getLast unitSeparable.nonempty, zero]
      rw [induction _ _ (fun other member => separable other (List.mem_cons_of_mem _ member))
        newLast newLastNonzero List.getLast?_concat (by simp) (by omega)]
      simp [laterMarkers, Nat.add_assoc]

theorem findMarkers_stream (unit : CodedUnit) (rest : List CodedUnit)
    (separable : ∀ other ∈ unit :: rest, Separable other.nal) :
    ∃ codeBegin, findMarkers (stream (unit :: rest)) (stream (unit :: rest)).length 0 [] =
      .ok (⟨codeBegin, unit.startCode.length⟩ ::
        laterMarkers (unit.startCode.length + unit.nal.length) rest) := by
  have unitSeparable := separable unit List.mem_cons_self
  have newLast : (unit.startCode ++ unit.nal).getLast? =
      some (unit.nal.getLast unitSeparable.nonempty) := by
    rw [List.getLast?_append_of_ne_nil _ unitSeparable.nonempty,
      List.getLast?_eq_some_getLast unitSeparable.nonempty]
  have newLastNonzero : unit.nal.getLast unitSeparable.nonempty ≠ 0 := by
    intro zero
    apply unitSeparable.lastNonzero
    rw [List.getLast?_eq_some_getLast unitSeparable.nonempty, zero]
  -- What follows the first code, whatever marker it left.
  have afterCode : ∀ codeBegin left, (stream rest).length ≤ left →
      findMarkers (stream (unit :: rest)) (left + unit.nal.length) unit.startCode.length
        [⟨codeBegin, unit.startCode.length⟩] =
      .ok (⟨codeBegin, unit.startCode.length⟩ ::
        laterMarkers (unit.startCode.length + unit.nal.length) rest) := by
    intro codeBegin left enough
    rw [stream_cons, findMarkers_nal _ _ _ unitSeparable.toCodeFree, ← List.append_assoc,
      findMarkers_later _ _ rest
        (fun other member => separable other (List.mem_cons_of_mem _ member)) newLast
        newLastNonzero List.getLast?_singleton (by simp) enough]
    simp
  have total : (stream (unit :: rest)).length =
      unit.startCode.length + (unit.nal.length + (stream rest).length) := by
    rw [stream_cons, List.length_append, List.length_append]
  have sum : (stream rest).length + 2 + unit.nal.length + 1 =
      3 + (unit.nal.length + (stream rest).length) := by
    omega
  cases code : unit.longCode with
  | false =>
      have step := findMarkers_code [] ((stream rest).length + 2 + unit.nal.length) []
        (unit.nal ++ stream rest) (rfl : codeBeginAt _ 0 [] = .ok 0)
      have later := afterCode 0 ((stream rest).length + 2) (by omega)
      rw [total]
      rw [stream_cons] at later ⊢
      simp only [CodedUnit.startCode, code] at later ⊢
      exact ⟨0, (congrArg (findMarkers _ · 0 []) sum.symm).trans (step.trans later)⟩
  | true =>
      have skip := findMarkers_skip [] ((stream rest).length + 2 + unit.nal.length + 1) [] 0
        (0 :: 0 :: 1 :: (unit.nal ++ stream rest)) rfl
      have step := findMarkers_code [0] ((stream rest).length + 2 + unit.nal.length) []
        (unit.nal ++ stream rest) (rfl : codeBeginAt _ 1 [] = .ok 1)
      have later := afterCode 1 ((stream rest).length + 2) (by omega)
      have sumLong : (stream rest).length + 2 + unit.nal.length + 1 + 1 =
          4 + (unit.nal.length + (stream rest).length) := by
        omega
      rw [total]
      rw [stream_cons] at later ⊢
      simp only [CodedUnit.startCode, code] at later ⊢
      exact ⟨1, (congrArg (findMarkers _ · 0 []) sumLong.symm).trans
        (skip.trans (step.trans later))⟩

/-! ## The units of a stream -/

theorem sliceAll_nalRanges (front nal : Bytes) (rest : List CodedUnit) (codeBegin : Nat)
    (nonempty : nal ≠ []) (separable : ∀ other ∈ rest, Separable other.nal) :
    sliceAll (front ++ (nal ++ stream rest))
        (nalRanges (front ++ (nal ++ stream rest)).length
          (⟨codeBegin, front.length⟩ :: laterMarkers (front.length + nal.length) rest)) =
      .ok (nal :: rest.map CodedUnit.nal) := by
  have positive : 0 < nal.length := List.length_pos_iff.mpr nonempty
  induction rest generalizing front nal codeBegin with
  | nil =>
      have length : (front ++ (nal ++ stream [])).length = front.length + nal.length := by
        simp [stream]
      rw [length, laterMarkers, nalRanges, if_pos (by simp [positive]), sliceAll,
        slice_append rfl rfl]
      rfl
  | cons unit rest induction =>
      have unitSeparable := separable unit List.mem_cons_self
      have later := induction (front ++ nal ++ unit.startCode) unit.nal (front.length + nal.length)
        unitSeparable.nonempty (fun other member => separable other (List.mem_cons_of_mem _ member))
        (List.length_pos_iff.mpr unitSeparable.nonempty)
      have split : front ++ (nal ++ stream (unit :: rest)) =
          front ++ nal ++ unit.startCode ++ (unit.nal ++ stream rest) := by
        rw [stream_cons]
        simp
      rw [laterMarkers, nalRanges, if_pos (by simp [positive]), sliceAll, slice_append rfl rfl,
        ok_bind]
      rw [split]
      simp only [List.length_append] at later ⊢
      rw [later]
      rfl

/-- The scan finds the units of every stream of separable ones. -/
theorem nalUnits_stream {units : List CodedUnit} (someUnits : units ≠ [])
    (separable : ∀ unit ∈ units, Separable unit.nal) :
    nalUnits (stream units) = .ok (units.map CodedUnit.nal) := by
  cases units with
  | nil => exact absurd rfl someUnits
  | cons unit rest =>
      rcases findMarkers_stream unit rest separable with ⟨codeBegin, found⟩
      have sliced := sliceAll_nalRanges unit.startCode unit.nal rest codeBegin
        (separable unit List.mem_cons_self).nonempty
        (fun other member => separable other (List.mem_cons_of_mem _ member))
      rw [nalUnits, findNalUnits, found, ok_bind]
      rw [← stream_cons] at sliced
      exact sliced

/-! ## Through the packets -/

/-- A stream of separable units, none of which would be taken for a fragment, is
packetized, and its packets are reassembled to the same units. -/
theorem packetize_depacketize (handler : RTPHandler) (frame : EncodedFrame)
    (units : List CodedUnit) (someUnits : units ≠ [])
    (separable : ∀ unit ∈ units, Separable unit.nal)
    (notFuA : ∀ unit ∈ units, unit.nal.length ≤ handler.maxPayload →
      nalType unit.nal ≠ kNalFuA)
    (video : frame.kind = .video) (h264 : frame.videoCodec = .h264)
    (payload : frame.payload = stream units) (videoCodec : VideoCodec) (audioCodec : AudioCodec) :
    ∃ after packets, handler.packetize frame = (after, .ok packets) ∧
      depacketize packets .video videoCodec audioCodec =
        .ok (videoFrame videoCodec frame.rtpTimestamp (units.map CodedUnit.nal)) := by
  have found := nalUnits_stream someUnits separable
  have carriable : ∀ nal ∈ units.map CodedUnit.nal, Carriable handler.maxPayload nal := by
    intro nal member
    rcases List.mem_map.mp member with ⟨unit, isUnit, rfl⟩
    exact ⟨(separable unit isUnit).nonempty, notFuA unit isUnit⟩
  have someNals : units.map CodedUnit.nal ≠ [] := by
    rwa [Ne, List.map_eq_nil_iff]
  rw [← payload] at found
  refine ⟨_, _, packetize_of_nalUnits video h264 found someNals, ?_⟩
  have payloads := handler.numberedPackets_payloads frame.rtpTimestamp
    ((units.map CodedUnit.nal).flatMap (nalPayloads handler.maxPayload))
  have nonempty := flatMap_nalPayloads_ne_nil handler.maxPayload_pos someNals
  cases packets : handler.numberedPackets frame.rtpTimestamp
      ((units.map CodedUnit.nal).flatMap (nalPayloads handler.maxPayload)) with
  | nil =>
      rw [packets] at payloads
      exact absurd payloads.symm nonempty
  | cons front rest =>
      have stamped : front.timestamp = frame.rtpTimestamp :=
        numberedPackets_timestamp front (packets ▸ List.mem_cons_self)
      rw [packets] at payloads
      rw [← stamped]
      exact depacketize_nals handler.maxPayload_pos carriable videoCodec audioCodec payloads

theorem packetize_depacketize_example :
    ∃ after packets,
      (create 0x60 7 kVideoRtpClockHz 3).packetize
          { videoCodec := .h264, rtpTimestamp := 90
            payload := [0, 0, 0, 1, 0x67, 0, 0, 1, 0x65, 1, 2, 3] } = (after, .ok packets) ∧
        depacketize packets .video .h264 .opus =
          .ok (videoFrame .h264 90 [[0x67], [0x65, 1, 2, 3]]) := by
  have separable : ∀ unit ∈ [CodedUnit.mk true [0x67], CodedUnit.mk false [0x65, 1, 2, 3]],
      Separable unit.nal := by
    intro unit member
    rcases List.mem_pair.mp member with rfl | rfl
    · exact ⟨⟨by decide, by decide⟩, by decide⟩
    · exact ⟨⟨by decide, by decide⟩, by decide⟩
  exact packetize_depacketize (create 0x60 7 kVideoRtpClockHz 3)
    { videoCodec := .h264, rtpTimestamp := 90
      payload := [0, 0, 0, 1, 0x67, 0, 0, 1, 0x65, 1, 2, 3] }
    [⟨true, [0x67]⟩, ⟨false, [0x65, 1, 2, 3]⟩] (by decide) separable (by decide) rfl rfl rfl
    .h264 .opus

end Vela.RTPHandler
