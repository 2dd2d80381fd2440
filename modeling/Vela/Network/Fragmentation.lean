import Vela.Network.RTPHandler

/-! # Fragments and their reassembly

What the packets of NAL units carry, and what the depacketizer makes of a list
of payloads that begins anywhere inside an access unit. -/

namespace Vela.RTPHandler

open Foundation RtpPacket

/-- NAL units as an Annex-B stream with 4-byte start codes. -/
def annexB (nals : List Bytes) : Bytes := nals.flatMap (kStartCode ++ ·)

def nalType : Bytes → Byte
  | [] => 0
  | header :: _ => header &&& kNalTypeMask

def isKeyType (type : Byte) : Bool := decide (type = 5 ∨ type = 7 ∨ type = 8)

/-- The NAL units that the payload format can carry: none is empty, and none
would be taken for a fragment when sent as one packet. -/
structure Carriable (maxPayload : Nat) (nal : Bytes) : Prop where
  nonempty : nal ≠ []
  notFragment : nal.length ≤ maxPayload → nalType nal ≠ kNalFuA

/-- A payload that can begin a NAL unit: not a fragment, or one with the S bit. -/
def startsNal : Bytes → Bool
  | [] => false
  | [indicator] => indicator &&& kNalTypeMask != kNalFuA
  | indicator :: header :: _ =>
      indicator &&& kNalTypeMask != kNalFuA || header &&& kFuStart != 0

theorem annexB_length (nals : List Bytes) :
    (annexB nals).length = (nals.map fun nal => nal.length + 4).sum := by
  induction nals with
  | nil => rfl
  | cons nal rest induction =>
      rw [annexB] at induction ⊢
      rw [List.flatMap_cons, List.length_append, List.length_append, induction, List.map_cons,
        List.sum_cons, kStartCode]
      simp only [List.length_cons, List.length_nil]
      omega

theorem annexB_append (before after : List Bytes) :
    annexB (before ++ after) = annexB before ++ annexB after :=
  List.flatMap_append

/-- Leaving out leading NAL units shows in the stream. -/
theorem annexB_suffix_eq_iff (before after : List Bytes) :
    annexB after = annexB (before ++ after) ↔ before = [] := by
  constructor
  · intro same
    have lengths := congrArg List.length same
    rw [annexB_append, List.length_append] at lengths
    cases before with
    | nil => rfl
    | cons nal rest =>
        rw [annexB_length (nal :: rest), List.map_cons, List.sum_cons] at lengths
        omega
  · intro empty
    rw [empty, List.nil_append]

/-! ## Header bytes of a fragment -/

theorem fuIndicator_type : ∀ nalHeader : Byte,
    fuIndicator nalHeader &&& kNalTypeMask = kNalFuA := by decide

theorem fuHeader_bits : ∀ (nalHeader : Byte) (first last : Bool),
    (fuHeader nalHeader first last &&& kFuStart != 0) = first ∧
      (fuHeader nalHeader first last &&& kFuEnd != 0) = last := by decide

/-- The NAL header comes back from the two header bytes of a fragment. -/
theorem nalHeader_rebuilt : ∀ (nalHeader : Byte) (first last : Bool),
    (fuIndicator nalHeader &&& 0xE0) |||
      (fuHeader nalHeader first last &&& kNalTypeMask) = nalHeader := by decide

/-- A fragment: its two header bytes before a part of the unit, and only the first one
may begin a unit. -/
theorem mem_fragments {header : Byte} {chunk : Nat} {payload : Bytes} (iterations : Nat)
    (rest : Bytes) (first : Bool)
    (member : payload ∈ fragments header chunk iterations rest first) :
    ∃ begins ends part, (begins = true → first = true) ∧ part.length ≤ chunk ∧
      payload = fuIndicator header :: fuHeader header begins ends :: part := by
  induction iterations generalizing rest first with
  | zero => cases member
  | succ iterations induction =>
      rw [fragments] at member
      split at member
      · rcases List.mem_cons.mp member with same | later
        · refine ⟨first, _, _, id, ?_, same⟩
          rw [List.length_take]
          omega
        · rcases induction _ _ later with ⟨begins, ends, part, onlyFirst, short, same⟩
          exact ⟨begins, ends, part, fun begun => absurd (onlyFirst begun) Bool.false_ne_true,
            short, same⟩
      · cases member

/-! ## One payload -/

@[simp] theorem byteAt_zero (byte : Byte) (rest : Bytes) : byteAt (byte :: rest) 0 = .ok byte :=
  rfl

@[simp] theorem byteAt_one (first second : Byte) (rest : Bytes) :
    byteAt (first :: second :: rest) 1 = .ok second := rfl

theorem slice_two (first second : Byte) (rest : Bytes) :
    slice (first :: second :: rest) 2 (first :: second :: rest).length = .ok rest := by
  simp [slice, pure, Except.pure]

namespace Reassembly

@[simp] theorem recordType_out (state : Reassembly) (type : Byte) :
    (state.recordType type).out = state.out := by
  rw [recordType]
  split <;> rfl

@[simp] theorem recordType_fuAccum (state : Reassembly) (type : Byte) :
    (state.recordType type).fuAccum = state.fuAccum := by
  rw [recordType]
  split <;> rfl

@[simp] theorem recordType_inFu (state : Reassembly) (type : Byte) :
    (state.recordType type).inFu = state.inFu := by
  rw [recordType]
  split <;> rfl

theorem recordType_sawKeyframe (state : Reassembly) (type : Byte) :
    (state.recordType type).sawKeyframe = (state.sawKeyframe || isKeyType type) := by
  rw [recordType, isKeyType]
  split
  · rename_i key
    rw [decide_eq_true key, Bool.or_true]
  · rename_i other
    rw [decide_eq_false other, Bool.or_false]

theorem addPayload_single (state : Reassembly) (closed : state.inFu = false) (header : Byte)
    (body : Bytes) (single : header &&& kNalTypeMask ≠ kNalFuA) :
    state.addPayload (header :: body) =
      .ok { state.recordType (header &&& kNalTypeMask) with
            out := state.out ++ kStartCode ++ header :: body } := by
  simp [addPayload, single, closed, pure, Except.pure]

/-- The state once a fragment's bytes are taken in: opened first at the S bit,
closed afterwards at the E bit. -/
def withFragment (state : Reassembly) (indicator header : Byte) (body : Bytes) : Reassembly :=
  let opened := if header &&& kFuStart != 0 then state.openFu indicator header else state
  let filled := { opened with fuAccum := opened.fuAccum ++ body }
  if header &&& kFuEnd != 0 then filled.closeFu else filled

/-- A fragment is accepted when it has the S bit exactly outside of a fragmented
NAL unit. -/
theorem addPayload_fragment (state : Reassembly) (indicator header : Byte) (body : Bytes)
    (fragment : indicator &&& kNalTypeMask = kNalFuA) :
    state.addPayload (indicator :: header :: body) =
      if (header &&& kFuStart != 0) = state.inFu then .error (.error .protocol)
      else .ok (state.withFragment indicator header body) := by
  have enough : ¬(indicator :: header :: body).length < 2 := by simp
  simp only [addPayload, List.isEmpty_cons, Bool.false_eq_true, if_false, byteAt_zero, ok_bind,
    fragment, if_true, addFragment, enough, byteAt_one, slice_two, withFragment]
  cases start : header &&& kFuStart != 0 <;> cases inside : state.inFu <;>
    cases last : header &&& kFuEnd != 0 <;> simp [inside, openFu, pure, Except.pure]
  all_goals rfl

/-- Outside of a fragmented NAL unit nothing but a start is accepted. -/
theorem addPayload_not_start (state : Reassembly) (closed : state.inFu = false) (payload : Bytes)
    (notStart : startsNal payload = false) :
    state.addPayload payload = .error (.error .protocol) := by
  match payload with
  | [] => rfl
  | [indicator] =>
      have fragment : indicator &&& kNalTypeMask = kNalFuA := by simpa [startsNal] using notStart
      simp [addPayload, addFragment, fragment]
  | indicator :: header :: body =>
      rw [startsNal, Bool.or_eq_false_iff, bne_eq_false_iff_eq] at notStart
      rw [addPayload_fragment state indicator header body notStart.1, notStart.2, closed,
        if_pos rfl]

theorem addAll_append (state : Reassembly) (earlier later : List Bytes) :
    state.addAll (earlier ++ later) =
      (state.addAll earlier >>= fun state => state.addAll later) := by
  induction earlier generalizing state with
  | nil => rfl
  | cons payload rest induction =>
      rw [List.cons_append, addAll, addAll]
      cases state.addPayload payload with
      | error fault => rfl
      | ok next => exact induction next

/-- `state`, with the NAL unit of `header` opened if its first fragment is next. -/
def opened (state : Reassembly) (header : Byte) (first : Bool) : Reassembly :=
  if first then { state with inFu := true, fuAccum := [header], fuNalHeader := header } else state

theorem withFragment_built (state : Reassembly) (header : Byte) (first last : Bool) (body : Bytes) :
    state.withFragment (fuIndicator header) (fuHeader header first last) body =
      let filled := { state.opened header first with
        fuAccum := (state.opened header first).fuAccum ++ body }
      if last then filled.closeFu else filled := by
  simp only [withFragment, (fuHeader_bits header first last).1,
    (fuHeader_bits header first last).2, openFu, nalHeader_rebuilt, opened]

/-- The fragments of one NAL unit are put together again, whatever the budget
for one of them. -/
theorem addAll_fragments {chunk : Nat} (positive : 0 < chunk) (header : Byte) :
    ∀ (iterations : Nat) (rest : Bytes) (first : Bool) (state : Reassembly),
      rest ≠ [] → rest.length ≤ iterations → state.inFu = !first →
      state.addAll (fragments header chunk iterations rest first) =
        .ok { state.opened header first with
              fuAccum := (state.opened header first).fuAccum ++ rest }.closeFu := by
  intro iterations
  induction iterations with
  | zero =>
      intro rest first state nonempty enough _
      exact absurd (List.eq_nil_of_length_eq_zero (Nat.le_zero.mp enough)) nonempty
  | succ iterations induction =>
      intro rest first state nonempty enough inside
      have positiveLength : 0 < rest.length := List.length_pos_iff.mpr nonempty
      have differs : ¬first = state.inFu := by
        rw [inside]
        cases first <;> decide
      rw [fragments, if_pos positiveLength, addAll,
        addPayload_fragment _ _ _ _ (fuIndicator_type _),
        (fuHeader_bits header first _).1, if_neg differs, withFragment_built]
      by_cases last : rest.length ≤ chunk
      · have all : min chunk rest.length = rest.length := Nat.min_eq_right last
        have none : fragments header chunk iterations [] false = [] := by
          cases iterations <;> rfl
        simp [all, none, addAll, pure, Except.pure]
      · have some : min chunk rest.length = chunk := by omega
        have more : ¬rest.length ≤ chunk := last
        have remaining : rest.drop chunk ≠ [] := by
          rw [Ne, List.drop_eq_nil_iff]
          exact more
        have shorter : (rest.drop chunk).length ≤ iterations := by
          rw [List.length_drop]
          omega
        have stillOpen : (state.opened header first).inFu = true := by
          rw [opened]
          cases first with
          | true => rfl
          | false => simpa using inside
        simp only [some, ge_iff_le, more, decide_false, Bool.false_eq_true, if_false, ok_bind]
        have later := induction (rest.drop chunk) false
          { state.opened header first with
            fuAccum := (state.opened header first).fuAccum ++ rest.take chunk }
          remaining shorter stillOpen
        rw [later]
        simp [opened, List.append_assoc, List.take_append_drop]

/-- `after` continues `before` by whole NAL units. -/
structure Extends (before : Reassembly) (nals : List Bytes) (after : Reassembly) : Prop where
  closed : after.inFu = false
  stream : after.out = before.out ++ annexB nals
  keyframe : after.sawKeyframe =
    (before.sawKeyframe || nals.any fun nal => isKeyType (nalType nal))

theorem addAll_nalPayloads {maxPayload : Nat} (positive : 0 < maxPayload) {nal : Bytes}
    (carriable : Carriable maxPayload nal) {state : Reassembly} (closed : state.inFu = false) :
    ∃ after, state.addAll (nalPayloads maxPayload nal) = .ok after ∧ Extends state [nal] after := by
  match nal, carriable with
  | [], carriable => exact absurd rfl carriable.nonempty
  | header :: body, carriable =>
      by_cases fits : (header :: body).length ≤ maxPayload
      · have single := carriable.notFragment fits
        rw [nalPayloads, if_pos fits, addAll, addPayload_single state closed header body single]
        refine ⟨_, rfl, ?_, ?_, ?_⟩
        · simp [closed]
        · simp [annexB]
        · simp [recordType_sawKeyframe, nalType]
      · have budget : 0 < fragmentBudget maxPayload := by
          rw [fragmentBudget]
          split <;> omega
        have remaining : body ≠ [] := by
          intro empty
          rw [empty] at fits
          exact fits positive
        rw [nalPayloads, if_neg fits,
          addAll_fragments budget header body.length body true state remaining
            (Nat.le_refl _) closed]
        refine ⟨_, rfl, ?_, ?_, ?_⟩
        · rfl
        · simp [closeFu, opened, annexB]
        · simp [closeFu, recordType_sawKeyframe, opened, nalType]

/-- Lists of payloads that carry one NAL unit each continue the stream by all of
these NAL units. -/
theorem addAll_flatMap {α : Type} {payloads : α → List Bytes} {nal : α → Bytes} {items : List α}
    (one : ∀ item ∈ items, ∀ state : Reassembly, state.inFu = false →
      ∃ after, state.addAll (payloads item) = .ok after ∧ Extends state [nal item] after)
    {state : Reassembly} (closed : state.inFu = false) :
    ∃ after, state.addAll (items.flatMap payloads) = .ok after ∧
      Extends state (items.map nal) after := by
  induction items generalizing state with
  | nil => exact ⟨state, rfl, closed, by simp [annexB], by simp⟩
  | cons item rest induction =>
      rcases one item List.mem_cons_self state closed with ⟨afterOne, added, extendsOne⟩
      rcases induction (fun other member => one other (List.mem_cons_of_mem _ member))
        extendsOne.closed with ⟨after, all, extendsAll⟩
      refine ⟨after, ?_, extendsAll.closed, ?_, ?_⟩
      · rw [List.flatMap_cons, addAll_append, added, ok_bind, all]
      · rw [extendsAll.stream, extendsOne.stream, List.append_assoc, ← annexB_append,
          List.singleton_append, List.map_cons]
      · rw [extendsAll.keyframe, extendsOne.keyframe, List.map_cons, List.any_cons, Bool.or_assoc]
        simp

theorem addAll_flatMap_nalPayloads {maxPayload : Nat} (positive : 0 < maxPayload)
    {nals : List Bytes} (carriable : ∀ nal ∈ nals, Carriable maxPayload nal) {state : Reassembly}
    (closed : state.inFu = false) :
    ∃ after, state.addAll (nals.flatMap (nalPayloads maxPayload)) = .ok after ∧
      Extends state nals after := by
  have one : ∀ nal ∈ nals, ∀ state : Reassembly, state.inFu = false →
      ∃ after, state.addAll (nalPayloads maxPayload nal) = .ok after ∧
        Extends state [id nal] after :=
    fun nal member _ inside => addAll_nalPayloads positive (carriable nal member) inside
  have all := addAll_flatMap one closed
  rwa [List.map_id] at all

end Reassembly

/-! ## Where an access unit can be cut -/

theorem fragments_not_start (header : Byte) (chunk iterations : Nat) (rest : Bytes) :
    ∀ payload ∈ fragments header chunk iterations rest false, startsNal payload = false := by
  intro payload member
  rcases mem_fragments iterations rest false member with ⟨begins, ends, part, onlyFirst, _, same⟩
  have later : begins = false := by
    cases begins with
    | false => rfl
    | true => exact (onlyFirst rfl).symm
  rw [same, startsNal, fuIndicator_type, (fuHeader_bits header begins ends).1, later]
  rfl

/-- Only the first payload of a NAL unit can begin one. -/
theorem nalPayloads_cases {maxPayload : Nat} (positive : 0 < maxPayload) {nal : Bytes}
    (carriable : Carriable maxPayload nal) :
    ∃ first rest, nalPayloads maxPayload nal = first :: rest ∧ startsNal first = true ∧
      ∀ payload ∈ rest, startsNal payload = false := by
  match nal, carriable with
  | [], carriable => exact absurd rfl carriable.nonempty
  | header :: body, carriable =>
      by_cases fits : (header :: body).length ≤ maxPayload
      · have single : header &&& kNalTypeMask ≠ kNalFuA := carriable.notFragment fits
        refine ⟨header :: body, [], by rw [nalPayloads, if_pos fits], ?_,
          fun _ member => nomatch member⟩
        cases body with
        | nil => simpa [startsNal] using single
        | cons second body => simp [startsNal, single]
      · cases body with
        | nil => exact absurd positive fits
        | cons second body =>
            have positiveLength : 0 < (second :: body).length := Nat.succ_pos _
            rw [nalPayloads, if_neg fits, List.length_cons, fragments, if_pos positiveLength]
            refine ⟨_, _, rfl, ?_, fragments_not_start header _ _ _⟩
            rw [startsNal, (fuHeader_bits header true _).1, Bool.or_true]

/-- What is left of an access unit when its leading packets are missing: if it
begins with the start of a NAL unit, whole NAL units are missing. -/
theorem cut_at_start {maxPayload : Nat} (positive : 0 < maxPayload) {nals : List Bytes}
    (carriable : ∀ nal ∈ nals, Carriable maxPayload nal) {lost kept : List Bytes} {first : Bytes}
    (split : nals.flatMap (nalPayloads maxPayload) = lost ++ first :: kept)
    (start : startsNal first = true) :
    ∃ before after, nals = before ++ after ∧ lost = before.flatMap (nalPayloads maxPayload) ∧
      first :: kept = after.flatMap (nalPayloads maxPayload) := by
  induction nals generalizing lost with
  | nil =>
      rw [List.flatMap_nil] at split
      exact absurd split.symm (by simp)
  | cons nal rest induction =>
      rcases nalPayloads_cases positive (carriable nal List.mem_cons_self) with
        ⟨head, tail, payloads, _, notStarts⟩
      rw [List.flatMap_cons] at split
      rcases List.append_eq_append_iff.mp split with ⟨more, lostSplit, restSplit⟩ |
        ⟨inside, nalSplit, keptSplit⟩
      · rcases induction (fun other member => carriable other (List.mem_cons_of_mem _ member))
          restSplit with ⟨before, after, nalsSplit, lostBefore, keptAfter⟩
        refine ⟨nal :: before, after, ?_, ?_, keptAfter⟩
        · rw [nalsSplit, List.cons_append]
        · rw [lostSplit, lostBefore, List.flatMap_cons]
      · cases lost with
        | nil =>
            refine ⟨[], nal :: rest, rfl, rfl, ?_⟩
            rw [List.flatMap_cons, nalSplit, List.nil_append, keptSplit]
        | cons lostFirst lost =>
            cases inside with
            | nil =>
                rw [List.append_nil] at nalSplit
                rw [List.nil_append] at keptSplit
                refine ⟨[nal], rest, rfl, ?_, keptSplit⟩
                rw [List.flatMap_singleton, nalSplit]
            | cons insideFirst inside =>
                rw [List.cons_append] at keptSplit
                cases keptSplit
                rw [payloads, List.cons_append] at nalSplit
                cases nalSplit
                have notStart := notStarts first (by simp)
                rw [start] at notStart
                cases notStart

/-! ## Whole lists of packets -/

/-- The frame that complete NAL units are reassembled to. -/
def videoFrame (videoCodec : VideoCodec) (timestamp : BitVec 32) (nals : List Bytes) :
    EncodedFrame where
  kind := .video
  videoCodec := videoCodec
  rtpTimestamp := timestamp
  keyframe := nals.any fun nal => isKeyType (nalType nal)
  payload := annexB nals

theorem depacketize_nals {maxPayload : Nat} (positive : 0 < maxPayload) {nals : List Bytes}
    (carriable : ∀ nal ∈ nals, Carriable maxPayload nal) {front : RtpPacket}
    {rest : List RtpPacket} (videoCodec : VideoCodec) (audioCodec : AudioCodec)
    (payloads : (front :: rest).map RtpPacket.payload = nals.flatMap (nalPayloads maxPayload)) :
    depacketize (front :: rest) .video videoCodec audioCodec =
      .ok (videoFrame videoCodec front.timestamp nals) := by
  rcases @Reassembly.addAll_flatMap_nalPayloads _ positive _ carriable {} rfl with
    ⟨after, all, continued⟩
  have stream : after.out = annexB nals := continued.stream
  have keyframe : after.sawKeyframe = nals.any fun nal => isKeyType (nalType nal) :=
    continued.keyframe
  simp only [depacketize, payloads, all, ok_bind, continued.closed, stream, keyframe, videoFrame]
  rfl

/-- Packets that begin inside a fragmented NAL unit are rejected. -/
theorem depacketize_not_start {front : RtpPacket} (rest : List RtpPacket)
    (notStart : startsNal front.payload = false) (videoCodec : VideoCodec)
    (audioCodec : AudioCodec) :
    depacketize (front :: rest) .video videoCodec audioCodec = .error (.error .protocol) := by
  rw [depacketize, List.map_cons, Reassembly.addAll,
    Reassembly.addPayload_not_start {} rfl front.payload notStart]
  rfl

end Vela.RTPHandler
