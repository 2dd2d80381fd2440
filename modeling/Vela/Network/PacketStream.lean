import Vela.Foundation.Machine
import Vela.Network.PayloadGrammar
import Vela.Network.SentUnits

/-! # The packets of one stream

A handler as a machine that takes frames: what one call does to the counter,
what its packets look like, and how the packets of all successful calls follow
each other. -/

namespace Vela.RTPHandler

open Foundation RtpPacket

/-! ## The scan stays inside of the buffer -/

theorem byteAt_ok {data : Bytes} {index : Nat} (inside : index < data.length) :
    byteAt data index = .ok data[index] := by
  rw [byteAt, List.getElem?_eq_getElem inside]

theorem startCodeAt_ok {data : Bytes} {i : Nat} (room : i + 3 ≤ data.length) :
    ∃ found, startCodeAt data i = .ok found := by
  rw [startCodeAt, byteAt_ok (by omega), byteAt_ok (by omega), byteAt_ok (by omega)]
  simp only [ok_bind]
  split
  · exact ⟨_, rfl⟩
  · split <;> exact ⟨_, rfl⟩

theorem codeBeginAt_ok {data : Bytes} {i : Nat} (inside : i < data.length)
    (markers : List Marker) : ∃ codeBegin, codeBeginAt data i markers = .ok codeBegin ∧
      codeBegin ≤ data.length := by
  rw [codeBeginAt]
  split
  · rw [byteAt_ok (by omega), ok_bind]
    split
    · split
      · exact ⟨_, rfl, by omega⟩
      · exact ⟨_, rfl, by omega⟩
    · exact ⟨_, rfl, by omega⟩
  · exact ⟨_, rfl, by omega⟩

theorem findMarkers_ok {data : Bytes} (iterations i : Nat) {markers : List Marker}
    (bounded : ∀ marker ∈ markers, marker.codeBegin ≤ data.length) :
    ∃ all, findMarkers data iterations i markers = .ok all ∧
      ∀ marker ∈ all, marker.codeBegin ≤ data.length := by
  induction iterations generalizing i markers with
  | zero => exact ⟨markers, rfl, bounded⟩
  | succ iterations induction =>
      rw [findMarkers]
      by_cases room : i + 3 ≤ data.length
      · rw [if_pos room]
        rcases startCodeAt_ok room with ⟨found, isFound⟩
        rw [isFound, ok_bind]
        cases found with
        | false => exact induction (i + 1) bounded
        | true =>
            rcases codeBeginAt_ok (show i < data.length by omega) markers with
              ⟨codeBegin, begins, inside⟩
            simp only [if_true, begins, ok_bind]
            apply induction (i + 3)
            intro marker member
            rcases List.mem_append.mp member with old | new
            · exact bounded marker old
            · rw [List.mem_singleton.mp new]
              exact inside
      · rw [if_neg room]
        exact ⟨markers, rfl, bounded⟩

theorem nalRanges_le {length : Nat} {markers : List Marker}
    (bounded : ∀ marker ∈ markers, marker.codeBegin ≤ length) :
    ∀ range ∈ nalRanges length markers, range.2 ≤ length := by
  fun_induction nalRanges length markers with
  | case1 =>
      intro range member
      cases member
  | case2 =>
      intro range member
      rw [List.mem_singleton.mp member]
  | case3 =>
      intro range member
      cases member
  | case4 marker next rest _ induction =>
      intro range member
      rcases List.mem_cons.mp member with first | later
      · rw [first]
        exact bounded next (by simp)
      · exact induction (fun other among => bounded other (List.mem_cons_of_mem _ among))
          range later
  | case5 marker next rest _ induction =>
      exact induction (fun other among => bounded other (List.mem_cons_of_mem _ among))

theorem sliceAll_ok {data : Bytes} {ranges : List (Nat × Nat)}
    (proper : ∀ range ∈ ranges, range.1 < range.2) (bounded : ∀ range ∈ ranges,
      range.2 ≤ data.length) : ∃ nals, sliceAll data ranges = .ok nals := by
  induction ranges with
  | nil => exact ⟨[], rfl⟩
  | cons range rest induction =>
      rcases induction (fun other member => proper other (List.mem_cons_of_mem _ member))
        (fun other member => bounded other (List.mem_cons_of_mem _ member)) with ⟨nals, later⟩
      rcases range with ⟨start, stop⟩
      have ordered : start < stop := proper (start, stop) List.mem_cons_self
      have inside : stop ≤ data.length := bounded (start, stop) List.mem_cons_self
      rw [sliceAll, slice, if_pos ⟨Nat.le_of_lt ordered, inside⟩, later]
      exact ⟨_, rfl⟩

/-- Whatever the buffer holds, the scan comes to an end without a read outside
of it. -/
theorem nalUnits_ok (data : Bytes) : ∃ nals, nalUnits data = .ok nals := by
  rcases @findMarkers_ok data data.length 0 [] (by simp) with ⟨markers, found, bounded⟩
  rcases sliceAll_ok (nalRanges_nonempty data.length markers) (nalRanges_le bounded) with
    ⟨nals, sliced⟩
  refine ⟨nals, ?_⟩
  rw [nalUnits, findNalUnits, found]
  exact sliced

/-! ## Fragmented NAL units -/

/-- The payloads of a NAL unit that is sent in several fragments. -/
def IsFragmented (nal : Bytes) (payloads : List Bytes) : Prop :=
  ∃ first rest starts ends, payloads = (Group.run first rest starts ends).payloads ∧
    rest ≠ [] ∧ nal = (Group.run first rest starts ends).nal

theorem fragments_shape {chunk : Nat} (positive : 0 < chunk) (header : Byte) :
    ∀ (iterations : Nat) (rest : Bytes) (first : Bool), rest ≠ [] → rest.length ≤ iterations →
      ∃ head tail, fragments header chunk iterations rest first =
          (head :: tail).map Fragment.payload ∧
        (head :: tail).map Fragment.isStart = first :: List.replicate tail.length false ∧
        (head :: tail).map Fragment.isEnd = List.replicate tail.length false ++ [true] ∧
        (head :: tail).flatMap Fragment.body = rest ∧ head.nalHeader = header ∧
        (chunk < rest.length → tail ≠ []) := by
  intro iterations
  induction iterations with
  | zero =>
      intro rest first nonempty enough
      exact absurd (List.eq_nil_of_length_eq_zero (Nat.le_zero.mp enough)) nonempty
  | succ iterations induction =>
      intro rest first nonempty enough
      have positiveLength : 0 < rest.length := List.length_pos_iff.mpr nonempty
      rw [fragments, if_pos positiveLength]
      by_cases last : rest.length ≤ chunk
      · have all : min chunk rest.length = rest.length := Nat.min_eq_right last
        have none : fragments header chunk iterations [] false = [] := by
          cases iterations <;> rfl
        refine ⟨⟨fuIndicator header, fuHeader header first true, rest, fuIndicator_type header⟩,
          [], ?_, ?_, ?_, ?_, nalHeader_rebuilt header first true, by omega⟩
        · simp [all, none, Fragment.payload]
        · simp only [List.map_singleton, Fragment.isStart, (fuHeader_bits header first true).1]
          rfl
        · simp only [List.map_singleton, Fragment.isEnd, (fuHeader_bits header first true).2]
          rfl
        · simp
      · have part : min chunk rest.length = chunk := by omega
        have remaining : rest.drop chunk ≠ [] := by
          rw [Ne, List.drop_eq_nil_iff]
          exact last
        have shorter : (rest.drop chunk).length ≤ iterations := by
          rw [List.length_drop]
          omega
        rcases induction (rest.drop chunk) false remaining shorter with
          ⟨head, tail, same, starts, ends, bodies, _, _⟩
        refine ⟨⟨fuIndicator header, fuHeader header first false, rest.take chunk,
          fuIndicator_type header⟩, head :: tail, ?_, ?_, ?_, ?_,
          nalHeader_rebuilt header first false, by simp⟩
        · simp [part, same, Fragment.payload, last]
        · rw [List.map_cons, starts, Fragment.isStart, (fuHeader_bits header first false).1]
          rfl
        · rw [List.map_cons, ends, Fragment.isEnd, (fuHeader_bits header first false).2]
          rfl
        · rw [List.flatMap_cons, bodies, List.take_append_drop]

theorem fragments_length_le {maxPayload : Nat} (limit : 3 ≤ maxPayload) (header : Byte)
    (iterations : Nat) (rest : Bytes) (first : Bool) :
    ∀ payload ∈ fragments header (fragmentBudget maxPayload) iterations rest first,
      payload.length ≤ maxPayload := by
  intro payload member
  rcases mem_fragments iterations rest first member with ⟨_, _, part, _, short, same⟩
  have budget : fragmentBudget maxPayload + 2 = maxPayload := by
    rw [fragmentBudget]
    split <;> omega
  rw [same]
  simp only [List.length_cons]
  omega

/-- With room for a byte behind the two header bytes, every payload keeps the
limit, and a NAL unit beyond it is sent in several fragments. -/
theorem nalPayloads_within {maxPayload : Nat} (limit : 3 ≤ maxPayload) (nal : Bytes) :
    (∀ payload ∈ nalPayloads maxPayload nal, payload.length ≤ maxPayload) ∧
      (maxPayload < nal.length → IsFragmented nal (nalPayloads maxPayload nal)) := by
  cases nal with
  | nil =>
      refine ⟨?_, fun long => absurd long (Nat.not_lt_zero _)⟩
      intro payload member
      rw [List.mem_singleton.mp member]
      exact Nat.zero_le _
  | cons header body =>
      rw [nalPayloads]
      by_cases fits : (header :: body).length ≤ maxPayload
      · rw [if_pos fits]
        refine ⟨?_, fun long => absurd fits (Nat.not_le.mpr long)⟩
        intro payload member
        rw [List.mem_singleton.mp member]
        exact fits
      · rw [if_neg fits]
        refine ⟨fragments_length_le limit header _ _ _, ?_⟩
        intro long
        rw [List.length_cons] at long
        have budget : 0 < fragmentBudget maxPayload ∧
            fragmentBudget maxPayload < body.length := by
          rw [fragmentBudget]
          split <;> omega
        have nonempty : body ≠ [] := by
          apply List.ne_nil_of_length_pos
          omega
        rcases fragments_shape budget.1 header body.length body true nonempty (Nat.le_refl _) with
          ⟨head, tail, same, starts, ends, bodies, nalHeader, several⟩
        refine ⟨head, tail, starts, ends, same, several budget.2, ?_⟩
        rw [Group.nal, nalHeader, bodies]

theorem nalPayloads_nonempty {maxPayload : Nat} {nal : Bytes} (nonempty : nal ≠ []) :
    ∀ payload ∈ nalPayloads maxPayload nal, payload ≠ [] := by
  cases nal with
  | nil => exact absurd rfl nonempty
  | cons header body =>
      rw [nalPayloads]
      split
      · intro payload member
        rw [List.mem_singleton.mp member]
        exact List.cons_ne_nil _ _
      · intro payload member
        rcases mem_fragments _ _ _ member with ⟨_, _, _, _, _, same⟩
        rw [same]
        exact List.cons_ne_nil _ _

/-! ## One call -/

/-- The payloads that a call sends for a frame. -/
inductive Sends (maxPayload : Nat) (frame : EncodedFrame) : List Bytes → Prop where
  | opus (audio : frame.kind = .audio) (nonempty : frame.payload ≠ []) :
      Sends maxPayload frame [frame.payload]
  | h264 (video : frame.kind = .video) (nals : List Bytes)
      (found : nalUnits frame.payload = .ok nals) (someNals : nals ≠ []) :
      Sends maxPayload frame (nals.flatMap (nalPayloads maxPayload))

/-- A call either fails and leaves the handler as it is, or sends the payloads
of its frame under the next numbers. -/
theorem packetize_cases (handler : RTPHandler) (frame : EncodedFrame) :
    (∃ error, handler.packetize frame = (handler, .error (.error error))) ∨
    ∃ payloads, Sends handler.maxPayload frame payloads ∧
      handler.packetize frame = (handler.advancedBy payloads.length,
        .ok (handler.numberedPackets frame.rtpTimestamp payloads)) := by
  by_cases empty : frame.payload.isEmpty = true
  · exact .inl ⟨.invalidArgument, by rw [packetize, if_pos empty]⟩
  · cases kind : frame.kind with
    | audio =>
        by_cases opus : frame.audioCodec = .opus
        · have nonempty : frame.payload ≠ [] := by
            rwa [List.isEmpty_iff] at empty
          refine .inr ⟨[frame.payload], .opus kind nonempty, ?_⟩
          simp [packetize, empty, kind, opus, packetizeOpus, emit, advancedBy, numberedPackets]
        · exact .inl ⟨.unsupported, by simp [packetize, empty, kind, opus]⟩
    | video =>
        by_cases h264 : frame.videoCodec = .h264
        · rcases nalUnits_ok frame.payload with ⟨nals, found⟩
          by_cases someNals : nals = []
          · refine .inl ⟨.protocol, ?_⟩
            simp [packetize, empty, kind, h264, packetizeH264, found, someNals]
          · exact .inr ⟨_, .h264 kind nals found someNals,
              packetize_of_nalUnits kind h264 found someNals⟩
        · exact .inl ⟨.unsupported, by simp [packetize, empty, kind, h264]⟩

/-- What the packets of one successful call look like. -/
structure IsSent (handler : RTPHandler) (frame : EncodedFrame) (packets : List RtpPacket) :
    Prop where
  somePackets : packets ≠ []
  stamped : ∀ packet ∈ packets, packet.timestamp = frame.rtpTimestamp ∧
    packet.ssrc = handler.ssrc ∧ packet.payloadType = handler.payloadType
  marked : ∀ index (within : index < packets.length),
    packets[index].marker = decide (index + 1 = packets.length)
  nonempty : ∀ packet ∈ packets, packet.payload ≠ []
  limited : frame.kind = .video → ∀ packet ∈ packets, packet.payload.length ≤ handler.maxPayload
  fragmented : frame.kind = .video → ∃ nals, nalUnits frame.payload = .ok nals ∧
    packets.map RtpPacket.payload = nals.flatMap (nalPayloads handler.maxPayload) ∧
    ∀ nal ∈ nals, handler.maxPayload < nal.length →
      IsFragmented nal (nalPayloads handler.maxPayload nal)

theorem isSent_numberedPackets {handler : RTPHandler} (limit : 3 ≤ handler.maxPayload)
    {frame : EncodedFrame} {payloads : List Bytes} (sends : Sends handler.maxPayload frame payloads)
    (seq : BitVec 16) :
    IsSent handler frame
      (numberedPackets { handler with seq := seq } frame.rtpTimestamp payloads) := by
  have somePayloads : payloads ≠ [] := by
    cases sends with
    | opus => exact List.cons_ne_nil _ _
    | h264 video nals found someNals =>
        exact flatMap_nalPayloads_ne_nil handler.maxPayload_pos someNals
  have nonempty : ∀ payload ∈ payloads, payload ≠ [] := by
    cases sends with
    | opus audio some =>
        intro payload member
        rwa [List.mem_singleton.mp member]
    | h264 video nals found someNals =>
        intro payload member
        rcases List.mem_flatMap.mp member with ⟨nal, isNal, among⟩
        exact nalPayloads_nonempty (nalUnits_nonempty found nal isNal) payload among
  have limited : frame.kind = .video → ∀ payload ∈ payloads,
      payload.length ≤ handler.maxPayload := by
    intro isVideo
    cases sends with
    | opus audio some =>
        rw [audio] at isVideo
        cases isVideo
    | h264 video nals found someNals =>
        intro payload member
        rcases List.mem_flatMap.mp member with ⟨nal, _, among⟩
        exact (nalPayloads_within limit nal).1 payload among
  refine ⟨?_, ?_, ?_, ?_, ?_, ?_⟩
  · rwa [numberedPackets, Ne, List.mapIdx_eq_nil_iff]
  · intro packet member
    rcases List.mem_mapIdx.mp member with ⟨index, within, rfl⟩
    exact ⟨rfl, rfl, rfl⟩
  · intro index within
    simp only [numberedPackets, List.getElem_mapIdx, List.length_mapIdx]
  · intro packet member
    rcases List.mem_mapIdx.mp member with ⟨index, within, rfl⟩
    exact nonempty _ (List.getElem_mem within)
  · intro isVideo packet member
    rcases List.mem_mapIdx.mp member with ⟨index, within, rfl⟩
    exact limited isVideo _ (List.getElem_mem within)
  · intro isVideo
    rw [numberedPackets_payloads]
    cases sends with
    | opus audio some =>
        rw [audio] at isVideo
        cases isVideo
    | h264 video nals found someNals =>
        exact ⟨nals, found, rfl, fun nal _ => (nalPayloads_within limit nal).2⟩

/-! ## Successive calls -/

/-- A handler that is given one frame after the other. -/
def sender (handler : RTPHandler) :
    Machine RTPHandler EncodedFrame (Except Fault (List RtpPacket)) where
  initial := handler
  step := packetize

/-- The packets that a call hands over. -/
def handedOver : Except Fault (List RtpPacket) → List RtpPacket
  | .ok packets => packets
  | .error _ => []

/-- The packets of the successful calls, in order. -/
def sentPackets (calls : List (EncodedFrame × Except Fault (List RtpPacket))) : List RtpPacket :=
  calls.flatMap fun call => handedOver call.2

/-- What holds of the calls so far and the handler after them. -/
structure InStep (handler : RTPHandler)
    (calls : List (EncodedFrame × Except Fault (List RtpPacket)))
    (state : RTPHandler) : Prop where
  counted : state = handler.advancedBy (sentPackets calls).length
  numbered : ∀ index (within : index < (sentPackets calls).length),
    (sentPackets calls)[index].sequenceNumber = handler.seq + BitVec.ofNat 16 index
  sent : ∀ frame packets, (frame, .ok packets) ∈ calls → IsSent handler frame packets

@[simp] theorem sentPackets_snoc (calls : List (EncodedFrame × Except Fault (List RtpPacket)))
    (frame : EncodedFrame) (outcome : Except Fault (List RtpPacket)) :
    sentPackets (calls ++ [(frame, outcome)]) = sentPackets calls ++ handedOver outcome := by
  rw [sentPackets, List.flatMap_append, List.flatMap_singleton]
  rfl

theorem advancedBy_advancedBy (handler : RTPHandler) (before after : Nat) :
    (handler.advancedBy before).advancedBy after = handler.advancedBy (before + after) := by
  simp only [advancedBy, BitVec.ofNat_add, BitVec.add_assoc]

theorem InStep.failed {handler state : RTPHandler}
    {calls : List (EncodedFrame × Except Fault (List RtpPacket))}
    (inStep : InStep handler calls state) (frame : EncodedFrame) (fault : Fault) :
    InStep handler (calls ++ [(frame, .error fault)]) state := by
  have same : sentPackets (calls ++ [(frame, .error fault)]) = sentPackets calls := by
    rw [sentPackets_snoc, handedOver, List.append_nil]
  refine ⟨?_, ?_, ?_⟩
  · rw [same]
    exact inStep.counted
  · simp only [same]
    exact inStep.numbered
  · intro other packets member
    rcases List.mem_append.mp member with earlier | last
    · exact inStep.sent other packets earlier
    · cases List.mem_singleton.mp last

theorem InStep.succeeded {handler state : RTPHandler} (limit : 3 ≤ handler.maxPayload)
    {calls : List (EncodedFrame × Except Fault (List RtpPacket))}
    (inStep : InStep handler calls state) {frame : EncodedFrame} {payloads : List Bytes}
    (sends : Sends state.maxPayload frame payloads) :
    InStep handler
      (calls ++ [(frame, .ok (state.numberedPackets frame.rtpTimestamp payloads))])
      (state.advancedBy payloads.length) := by
  have counted := inStep.counted
  subst counted
  have count : (numberedPackets (handler.advancedBy (sentPackets calls).length)
      frame.rtpTimestamp payloads).length = payloads.length := by
    rw [numberedPackets, List.length_mapIdx]
  refine ⟨?_, ?_, ?_⟩
  · rw [advancedBy_advancedBy, sentPackets_snoc, handedOver, List.length_append, count]
  · intro index within
    simp only [sentPackets_snoc, handedOver, List.length_append, count] at within ⊢
    rw [List.getElem_append]
    split
    · rename_i earlier
      exact inStep.numbered index earlier
    · rename_i late
      simp only [numberedPackets, List.getElem_mapIdx, advancedBy]
      rw [BitVec.add_assoc, ← BitVec.ofNat_add, Nat.add_sub_cancel' (Nat.not_lt.mp late)]
  · intro other packets member
    rcases List.mem_append.mp member with earlier | last
    · exact inStep.sent other packets earlier
    · cases List.mem_singleton.mp last
      exact isSent_numberedPackets limit sends _

/-- A failed call changes nothing, and the failure is one that the code reports. -/
def FailsClean (state : RTPHandler) (frame : EncodedFrame) : Prop :=
  ∀ fault, (state.packetize frame).2 = .error fault →
    (state.packetize frame).1 = state ∧ fault ≠ .outOfBounds

theorem failsClean (state : RTPHandler) (frame : EncodedFrame) : FailsClean state frame := by
  intro fault failed
  rcases packetize_cases state frame with ⟨error, refused⟩ | ⟨payloads, _, accepted⟩
  · rw [refused] at failed ⊢
    cases failed
    refine ⟨rfl, ?_⟩
    intro same
    cases same
  · rw [accepted] at failed
    cases failed

theorem inStep_transcript {handler : RTPHandler} (limit : 3 ≤ handler.maxPayload)
    (frames : List EncodedFrame) :
    InStep handler (handler.sender.transcript frames) (handler.sender.run frames) := by
  induction frames using List.reverseRecOn with
  | nil =>
      refine ⟨?_, ?_, ?_⟩
      · simp [sender, sentPackets, advancedBy]
      · intro index within
        cases within
      · intro frame packets member
        cases member
  | append_singleton past frame induction =>
      rw [Machine.transcript_snoc, Machine.run_snoc, Machine.next, Machine.output]
      change InStep handler (handler.sender.transcript past ++
        [(frame, (packetize (handler.sender.run past) frame).2)])
        (packetize (handler.sender.run past) frame).1
      rcases packetize_cases (handler.sender.run past) frame with
        ⟨error, refused⟩ | ⟨payloads, sends, accepted⟩
      · rw [refused]
        exact induction.failed frame _
      · rw [accepted]
        exact induction.succeeded limit sends

theorem create_limit {limit : Nat} (allowed : limit = 0 ∨ 3 ≤ limit) (payloadType : BitVec 8)
    (ssrc clockRateHz : BitVec 32) :
    3 ≤ (create payloadType ssrc clockRateHz limit).maxPayload := by
  rw [create]
  dsimp only
  split
  · decide
  · omega

/-- Over every sequence of calls the packets of the successful ones carry
consecutive numbers, each call's packets have their form, and a failed call
leaves no trace. -/
theorem stream_discipline (payloadType : BitVec 8) (ssrc clockRateHz : BitVec 32) (limit : Nat)
    (allowed : limit = 0 ∨ 3 ≤ limit) (seq : BitVec 16) (frames : List EncodedFrame) :
    let handler : RTPHandler := { create payloadType ssrc clockRateHz limit with seq := seq }
    InStep handler (handler.sender.transcript frames) (handler.sender.run frames) ∧
      handler.sender.EveryStep FailsClean frames := by
  intro handler
  have within : 3 ≤ handler.maxPayload := create_limit allowed payloadType ssrc clockRateHz
  exact ⟨inStep_transcript within frames, fun past frame _ => failsClean _ frame⟩

theorem stream_discipline_example :
    let handler : RTPHandler := { create 0x60 7 kVideoRtpClockHz 3 with seq := 0xFFFF }
    let frames : List EncodedFrame :=
      [{ videoCodec := .h264 },
        { videoCodec := .h264, rtpTimestamp := 90, payload := [0, 0, 1, 0x65, 1, 2, 3] }]
    InStep handler (handler.sender.transcript frames) (handler.sender.run frames) ∧
      handler.sender.EveryStep FailsClean frames :=
  stream_discipline 0x60 7 kVideoRtpClockHz 3 (.inr (by decide)) 0xFFFF _

end Vela.RTPHandler
