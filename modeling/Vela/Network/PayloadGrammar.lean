import Vela.Network.Fragmentation

/-! # The payload grammar

The payload lists of an access unit as a grammar: single NAL unit payloads and
runs of FU-A fragments. The depacketizer accepts exactly the lists of that
grammar, and gives the NAL units they carry. -/

namespace Vela.RTPHandler

open Foundation RtpPacket

/-- A payload of type 28 with both of its header bytes. -/
structure Fragment where
  indicator : Byte
  header : Byte
  body : Bytes
  isFuA : indicator &&& kNalTypeMask = kNalFuA

namespace Fragment

def payload (fragment : Fragment) : Bytes :=
  fragment.indicator :: fragment.header :: fragment.body

def isStart (fragment : Fragment) : Bool := fragment.header &&& kFuStart != 0

def isEnd (fragment : Fragment) : Bool := fragment.header &&& kFuEnd != 0

/-- The header of the NAL unit that the fragment begins. -/
def nalHeader (fragment : Fragment) : Byte :=
  (fragment.indicator &&& 0xE0) ||| (fragment.header &&& kNalTypeMask)

end Fragment

/-- The payloads of one NAL unit: one payload that is no fragment, or a run of
fragments whose first and only first has the S bit and whose last and only last
has the E bit. -/
inductive Group where
  | single (header : Byte) (body : Bytes) (notFuA : header &&& kNalTypeMask ≠ kNalFuA)
  | run (first : Fragment) (rest : List Fragment)
      (starts : (first :: rest).map Fragment.isStart = true :: List.replicate rest.length false)
      (ends : (first :: rest).map Fragment.isEnd = List.replicate rest.length false ++ [true])

namespace Group

def payloads : Group → List Bytes
  | single header body _ => [header :: body]
  | run first rest _ _ => (first :: rest).map Fragment.payload

def nal : Group → Bytes
  | single header body _ => header :: body
  | run first rest _ _ => first.nalHeader :: (first :: rest).flatMap Fragment.body

end Group

namespace Reassembly

/-! ## One payload -/

theorem withFragment_inFu (state : Reassembly) (fragment : Fragment)
    (inside : fragment.isStart = !state.inFu) :
    (state.withFragment fragment.indicator fragment.header fragment.body).inFu =
      !fragment.isEnd := by
  rw [Fragment.isStart] at inside
  rw [Fragment.isEnd, withFragment, inside]
  cases closed : state.inFu <;> cases fragment.header &&& kFuEnd != 0 <;>
    simp [openFu, closeFu, closed]

/-- What an accepted payload can be, and whether a fragmented NAL unit is open
after it. -/
theorem addPayload_cases {state next : Reassembly} {payload : Bytes}
    (accepted : state.addPayload payload = .ok next) :
    (∃ header body, payload = header :: body ∧ header &&& kNalTypeMask ≠ kNalFuA ∧
      state.inFu = false ∧ next.inFu = false) ∨
    ∃ fragment : Fragment, payload = fragment.payload ∧ fragment.isStart = !state.inFu ∧
      next.inFu = !fragment.isEnd := by
  cases payload with
  | nil => cases accepted
  | cons indicator rest =>
      by_cases fuA : indicator &&& kNalTypeMask = kNalFuA
      · cases rest with
        | nil => simp [addPayload, addFragment, fuA] at accepted
        | cons header body =>
            rw [addPayload_fragment state indicator header body fuA] at accepted
            split at accepted
            · cases accepted
            · rename_i differs
              cases accepted
              have inside : (header &&& kFuStart != 0) = !state.inFu := Bool.eq_not_of_ne differs
              exact .inr ⟨⟨indicator, header, body, fuA⟩, rfl, inside,
                withFragment_inFu state ⟨indicator, header, body, fuA⟩ inside⟩
      · cases inside : state.inFu with
        | true => simp [addPayload, fuA, inside] at accepted
        | false =>
            rw [addPayload_single state inside indicator rest fuA] at accepted
            cases accepted
            refine .inl ⟨indicator, rest, rfl, fuA, rfl, ?_⟩
            rw [← inside]
            exact recordType_inFu state _

theorem addPayload_inBounds (state : Reassembly) (payload : Bytes) :
    state.addPayload payload ≠ .error .outOfBounds := by
  cases payload with
  | nil =>
      intro same
      cases same
  | cons indicator rest =>
      by_cases fuA : indicator &&& kNalTypeMask = kNalFuA
      · cases rest with
        | nil => simp [addPayload, addFragment, fuA]
        | cons header body =>
            rw [addPayload_fragment state indicator header body fuA]
            split <;>
            · intro same
              cases same
      · cases inside : state.inFu with
        | true => simp [addPayload, fuA, inside]
        | false =>
            rw [addPayload_single state inside indicator rest fuA]
            intro same
            cases same

theorem addAll_inBounds (state : Reassembly) (payloads : List Bytes) :
    state.addAll payloads ≠ .error .outOfBounds := by
  induction payloads generalizing state with
  | nil =>
      intro same
      cases same
  | cons payload rest induction =>
      apply bind_ne_error (addPayload_inBounds state payload)
      intro next _
      exact induction next

/-! ## Lists of the grammar are accepted -/

theorem addPayload_of_inside (state : Reassembly) (fragment : Fragment)
    (inside : fragment.isStart = !state.inFu) :
    state.addPayload fragment.payload =
      .ok (state.withFragment fragment.indicator fragment.header fragment.body) := by
  have differs : ¬(fragment.header &&& kFuStart != 0) = state.inFu := by
    rw [Fragment.isStart] at inside
    rw [inside]
    cases state.inFu <;> decide
  rw [Fragment.payload, addPayload_fragment _ _ _ _ fragment.isFuA, if_neg differs]

/-- The fragments of an open NAL unit up to its last one. -/
theorem addAll_tail (fragments : List Fragment) (later : Nat) (state : Reassembly)
    (inside : state.inFu = true)
    (starts : fragments.map Fragment.isStart = List.replicate (later + 1) false)
    (ends : fragments.map Fragment.isEnd = List.replicate later false ++ [true]) :
    state.addAll (fragments.map Fragment.payload) =
      .ok { state with fuAccum := state.fuAccum ++ fragments.flatMap Fragment.body }.closeFu := by
  induction later generalizing fragments state with
  | zero =>
      rcases List.map_eq_cons_iff.mp ends with ⟨fragment, rest, rfl, isEnd, noMore⟩
      rw [List.map_eq_nil_iff] at noMore
      subst noMore
      have notStart : fragment.isStart = false := (List.cons.inj starts).1
      rw [List.map_singleton, addAll, addPayload_of_inside state fragment (by simp [*])]
      rw [Fragment.isStart] at notStart
      rw [Fragment.isEnd] at isEnd
      simp only [withFragment, notStart, isEnd, Bool.false_eq_true, if_true, if_false, ok_bind,
        addAll, List.flatMap_singleton]
      rfl
  | succ later induction =>
      rw [List.replicate_succ, List.cons_append] at ends
      rcases List.map_eq_cons_iff.mp ends with ⟨fragment, rest, rfl, notEnd, restEnds⟩
      rcases List.cons.inj starts with ⟨notStart, restStarts⟩
      rw [List.map_cons, addAll, addPayload_of_inside state fragment (by simp [*])]
      rw [Fragment.isStart] at notStart
      rw [Fragment.isEnd] at notEnd
      simp only [withFragment, notStart, notEnd, Bool.false_eq_true, if_false, ok_bind]
      rw [induction rest _ (by exact inside) restStarts restEnds]
      simp only [List.append_assoc, List.flatMap_cons]

theorem addAll_group (group : Group) (state : Reassembly) (closed : state.inFu = false) :
    ∃ after, state.addAll group.payloads = .ok after ∧ Extends state [group.nal] after := by
  cases group with
  | single header body notFuA =>
      rw [Group.payloads, addAll, addPayload_single state closed header body notFuA]
      refine ⟨_, rfl, ?_, ?_, ?_⟩
      · simp [closed]
      · simp [annexB, Group.nal]
      · simp [recordType_sawKeyframe, nalType, Group.nal]
  | run first rest starts ends =>
      rcases List.cons.inj starts with ⟨isStart, restStarts⟩
      have extends_closed : Extends state [(Group.run first rest starts ends).nal]
          { state.openFu first.indicator first.header with
            fuAccum := first.nalHeader :: (first :: rest).flatMap Fragment.body }.closeFu := by
        refine ⟨rfl, ?_, ?_⟩
        · simp [closeFu, openFu, annexB, Group.nal]
        · simp [closeFu, openFu, recordType_sawKeyframe, nalType, Group.nal, Fragment.nalHeader]
      refine ⟨_, ?_, extends_closed⟩
      rw [Group.payloads, List.map_cons, addAll, addPayload_of_inside state first (by simp [*])]
      rw [Fragment.isStart] at isStart
      cases rest with
      | nil =>
          have isEnd : first.isEnd = true := (List.cons.inj ends).1
          rw [Fragment.isEnd] at isEnd
          simp only [withFragment, isStart, isEnd, if_true, ok_bind, List.map_nil, addAll,
            List.flatMap_singleton]
          rfl
      | cons second rest =>
          rcases List.cons.inj ends with ⟨notEnd, restEnds⟩
          rw [Fragment.isEnd] at notEnd
          simp only [withFragment, isStart, notEnd, Bool.false_eq_true, if_true, if_false, ok_bind]
          rw [addAll_tail (second :: rest) rest.length _ rfl restStarts restEnds]
          simp [openFu, Fragment.nalHeader]

/-! ## Accepted lists are of the grammar -/

/-- The payloads up to the end of the open NAL unit, if there is one, and then
whole groups. -/
def Continues (state : Reassembly) (payloads : List Bytes) : Prop :=
  if state.inFu then
    ∃ (later : Nat) (fragments : List Fragment) (groups : List Group),
      fragments.map Fragment.isStart = List.replicate (later + 1) false ∧
      fragments.map Fragment.isEnd = List.replicate later false ++ [true] ∧
      payloads = fragments.map Fragment.payload ++ groups.flatMap Group.payloads
  else ∃ groups : List Group, payloads = groups.flatMap Group.payloads

theorem continues_of_addAll {state after : Reassembly} {payloads : List Bytes}
    (accepted : state.addAll payloads = .ok after) (closed : after.inFu = false) :
    Continues state payloads := by
  induction payloads generalizing state with
  | nil =>
      cases accepted
      rw [Continues, closed]
      exact ⟨[], rfl⟩
  | cons payload rest induction =>
      rcases bind_eq_ok.mp accepted with ⟨next, one, more⟩
      have later := induction more
      rw [Continues] at later ⊢
      rcases addPayload_cases one with ⟨header, body, rfl, notFuA, outside, nextOutside⟩ |
        ⟨fragment, rfl, isStart, nextInside⟩
      · rw [nextOutside] at later
        rcases later with ⟨groups, rfl⟩
        rw [outside]
        exact ⟨.single header body notFuA :: groups, rfl⟩
      · cases isEnd : fragment.isEnd with
        | true =>
            rw [nextInside, isEnd] at later
            rcases later with ⟨groups, rfl⟩
            cases inside : state.inFu with
            | true =>
                rw [inside] at isStart
                exact ⟨0, [fragment], groups, by simp [isStart], by simp [isEnd], rfl⟩
            | false =>
                rw [inside] at isStart
                exact ⟨.run fragment [] (by simp [isStart]) (by simp [isEnd]) :: groups, rfl⟩
        | false =>
            rw [nextInside, isEnd] at later
            rcases later with ⟨count, fragments, groups, starts, ends, rfl⟩
            cases inside : state.inFu with
            | true =>
                rw [inside] at isStart
                refine ⟨count + 1, fragment :: fragments, groups, ?_, ?_, rfl⟩
                · rw [List.map_cons, isStart, starts]
                  rfl
                · rw [List.map_cons, isEnd, ends]
                  rfl
            | false =>
                rw [inside] at isStart
                have length : fragments.length = count + 1 := by
                  have sameLength := congrArg List.length starts
                  rwa [List.length_map, List.length_replicate] at sameLength
                refine ⟨.run fragment fragments ?_ ?_ :: groups, rfl⟩
                · rw [List.map_cons, isStart, starts, length]
                  rfl
                · rw [List.map_cons, isEnd, ends, length]
                  rfl

end Reassembly

/-! ## Whole access units -/

/-- The depacketizer accepts exactly the payload lists of the grammar, gives
their NAL units, and reads no byte outside of a payload. -/
theorem depacketize_grammar (front : RtpPacket) (rest : List RtpPacket) (videoCodec : VideoCodec)
    (audioCodec : AudioCodec) :
    (∀ frame, depacketize (front :: rest) .video videoCodec audioCodec = .ok frame ↔
      ∃ groups : List Group,
        (front :: rest).map RtpPacket.payload = groups.flatMap Group.payloads ∧
        frame = videoFrame videoCodec front.timestamp (groups.map Group.nal)) ∧
    depacketize (front :: rest) .video videoCodec audioCodec ≠ .error .outOfBounds := by
  constructor
  · have accepted_of_groups : ∀ groups : List Group,
        (front :: rest).map RtpPacket.payload = groups.flatMap Group.payloads →
        depacketize (front :: rest) .video videoCodec audioCodec =
          .ok (videoFrame videoCodec front.timestamp (groups.map Group.nal)) := by
      intro groups split
      rcases @Reassembly.addAll_flatMap Group Group.payloads Group.nal groups
        (fun group _ => Reassembly.addAll_group group) {} rfl with ⟨after, all, continued⟩
      have stream : after.out = annexB (groups.map Group.nal) := continued.stream
      have keyframe : after.sawKeyframe =
          (groups.map Group.nal).any fun nal => isKeyType (nalType nal) := continued.keyframe
      simp only [depacketize, split, all, ok_bind, continued.closed, stream, keyframe, videoFrame]
      rfl
    intro frame
    constructor
    · intro accepted
      rcases bind_eq_ok.mp accepted with ⟨after, all, finished⟩
      have closed : after.inFu = false := by
        cases inside : after.inFu with
        | false => rfl
        | true =>
            rw [inside] at finished
            cases finished
      rcases Reassembly.continues_of_addAll all closed with ⟨groups, split⟩
      refine ⟨groups, split, ?_⟩
      have same := accepted_of_groups groups split
      rw [accepted] at same
      cases same
      rfl
    · rintro ⟨groups, split, rfl⟩
      exact accepted_of_groups groups split
  · apply bind_ne_error (Reassembly.addAll_inBounds _ _)
    intro after _
    split <;>
    · intro same
      cases same

end Vela.RTPHandler
