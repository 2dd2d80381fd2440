import Vela.Network.PacketStream

/-! # Scanning arbitrary bytes

The scan finds every start code of a buffer, and no byte behind the first one is
lost but the zero that makes a code a long one. -/

namespace Vela.RTPHandler

open Foundation RtpPacket

/-! ## Start codes -/

/-- The bytes 00 00 01 are at this position. -/
def CodeAt (data : Bytes) (position : Nat) : Prop :=
  data[position]? = some 0 ∧ data[position + 1]? = some 0 ∧ data[position + 2]? = some 1

instance (data : Bytes) (position : Nat) : Decidable (CodeAt data position) :=
  inferInstanceAs (Decidable (_ ∧ _))

variable {data : Bytes} {position i : Nat}

theorem CodeAt.inside (code : CodeAt data position) : position + 3 ≤ data.length := by
  have last := code.2.2
  rw [List.getElem?_eq_some_iff] at last
  exact last.1

/-- Two start codes do not overlap. -/
theorem CodeAt.apart {other : Nat} (code : CodeAt data position) (next : CodeAt data other)
    (before : position < other) : position + 3 ≤ other := by
  by_contra close
  have second : data[position + 2]? = some 0 := by
    rcases (show other = position + 1 ∨ other = position + 2 by omega) with rfl | rfl
    · exact next.2.1
    · exact next.1
  rw [code.2.2] at second
  cases second

theorem startCodeAt_eq (room : i + 3 ≤ data.length) :
    startCodeAt data i = .ok (decide (CodeAt data i)) := by
  have first : data[i]? = some data[i] := List.getElem?_eq_getElem _
  have second : data[i + 1]? = some data[i + 1] := List.getElem?_eq_getElem _
  have third : data[i + 2]? = some data[i + 2] := List.getElem?_eq_getElem _
  rw [startCodeAt, byteAt_ok (by omega), byteAt_ok (by omega), byteAt_ok (by omega)]
  simp only [ok_bind, CodeAt, first, second, third, Option.some.injEq]
  by_cases firstZero : data[i] = 0#8 <;> by_cases secondZero : data[i + 1] = 0#8 <;>
    by_cases thirdOne : data[i + 2] = 1#8 <;>
      simp [firstZero, secondZero, thirdOne, pure, Except.pure]

/-- The start codes below a position. -/
def codesBelow (data : Bytes) (bound : Nat) : List Nat :=
  (List.range bound).filter fun position => CodeAt data position

theorem mem_codesBelow {bound : Nat} :
    position ∈ codesBelow data bound ↔ position < bound ∧ CodeAt data position := by
  rw [codesBelow, List.mem_filter, List.mem_range, decide_eq_true_iff]

/-- Every start code of the buffer begins below its end. -/
theorem CodeAt.mem_codesBelow (code : CodeAt data position) :
    position ∈ codesBelow data data.length := by
  have inside := code.inside
  exact RTPHandler.mem_codesBelow.mpr ⟨by omega, code⟩

theorem codesBelow_succ (data : Bytes) (bound : Nat) :
    codesBelow data (bound + 1) =
      codesBelow data bound ++ if CodeAt data bound then [bound] else [] := by
  by_cases code : CodeAt data bound
  · simp [codesBelow, List.range_succ, code]
  · simp [codesBelow, List.range_succ, code]

theorem codesBelow_skip (noCode : ¬CodeAt data i) :
    codesBelow data (i + 1) = codesBelow data i := by
  rw [codesBelow_succ, if_neg noCode, List.append_nil]

theorem codesBelow_code (code : CodeAt data i) :
    codesBelow data (i + 3) = codesBelow data i ++ [i] := by
  have notSecond : ¬CodeAt data (i + 1) := by
    intro next
    have apart := code.apart next (by omega)
    omega
  have notThird : ¬CodeAt data (i + 2) := by
    intro next
    have apart := code.apart next (by omega)
    omega
  rw [codesBelow_skip notThird, codesBelow_skip notSecond, codesBelow_succ, if_pos code]

/-- No start code begins in the last two bytes. -/
theorem codesBelow_end (short : data.length < i + 3) {bound : Nat} (beyond : i ≤ bound) :
    codesBelow data bound = codesBelow data i := by
  induction bound, beyond using Nat.le_induction with
  | base => rfl
  | succ bound beyond induction =>
      have noCode : ¬CodeAt data bound := by
        intro code
        have inside := code.inside
        omega
      rw [codesBelow_skip noCode, induction]

/-! ## The markers -/

/-- Where a start code behind another one begins, with its extra zero or without. -/
def codeStart (data : Bytes) (position : Nat) : Nat :=
  if data[position - 1]? = some 0 then position - 1 else position

def markersOf (data : Bytes) : List Nat → List Marker
  | [] => []
  | first :: rest =>
      ⟨first, first + 3⟩ :: rest.map fun position => ⟨codeStart data position, position + 3⟩

theorem markersOf_concat (data : Bytes) (codes : List Nat) (position : Nat) :
    markersOf data (codes ++ [position]) = markersOf data codes ++
      [⟨if codes = [] then position else codeStart data position, position + 3⟩] := by
  cases codes with
  | nil => rfl
  | cons first rest => simp [markersOf]

/-- A later code, its extra zero included, begins behind the code before it. -/
theorem CodeAt.codeStart_after {other : Nat} (code : CodeAt data position)
    (next : CodeAt data other) (before : position < other) :
    position + 3 ≤ codeStart data other ∧ codeStart data other ≤ other := by
  have apart := code.apart next before
  rw [codeStart]
  split
  · rename_i zero
    have notLast : position + 3 ≠ other := by
      intro adjacent
      have last := code.2.2
      rw [← adjacent, Nat.add_sub_assoc (by decide), last] at zero
      cases zero
    omega
  · omega

theorem codeBeginAt_eq (code : CodeAt data i) :
    codeBeginAt data i (markersOf data (codesBelow data i)) =
      .ok (if codesBelow data i = [] then i else codeStart data i) := by
  have inside := code.inside
  rcases List.eq_nil_or_concat (codesBelow data i) with none | ⟨earlier, last, codes⟩
  · rw [none, codeBeginAt]
    split
    · rw [byteAt_ok (by omega)]
      rfl
    · rfl
  · have member : last ∈ codesBelow data i := by
      rw [codes]
      simp
    rcases mem_codesBelow.mp member with ⟨before, lastCode⟩
    have apart := lastCode.apart code before
    have after := (lastCode.codeStart_after code before).1
    have previous : data[i - 1]? = some data[i - 1] := List.getElem?_eq_getElem _
    have start : codeStart data i = if data[i - 1] = 0#8 then i - 1 else i := by
      simp [codeStart, previous]
    have someCodes : earlier.concat last ≠ [] := by simp
    rw [codes, if_neg someCodes, List.concat_eq_append, markersOf_concat, codeBeginAt,
      if_pos (by omega), byteAt_ok (by omega), ok_bind, List.getLast?_concat]
    rw [start] at after ⊢
    by_cases zero : data[i - 1] = 0#8
    · rw [if_pos zero] at after
      simp [zero, after, pure, Except.pure]
    · simp [zero, pure, Except.pure]

/-- The scan finds every start code. -/
theorem findMarkers_eq (iterations : Nat) (within : i ≤ data.length)
    (enough : data.length ≤ i + iterations) :
    findMarkers data iterations i (markersOf data (codesBelow data i)) =
      .ok (markersOf data (codesBelow data data.length)) := by
  induction iterations generalizing i with
  | zero =>
      have atEnd : i = data.length := by omega
      rw [atEnd]
      rfl
  | succ iterations induction =>
      rw [findMarkers]
      by_cases room : i + 3 ≤ data.length
      · rw [if_pos room, startCodeAt_eq room, ok_bind]
        by_cases code : CodeAt data i
        · have later := induction (i := i + 3) room (by omega)
          rw [codesBelow_code code, markersOf_concat] at later
          simp only [code, decide_true, if_true, codeBeginAt_eq code, ok_bind]
          exact later
        · have later := induction (i := i + 1) (by omega) (by omega)
          rw [codesBelow_skip code] at later
          simp only [code, decide_false, Bool.false_eq_true, if_false]
          exact later
      · rw [if_neg room, codesBelow_end (by omega) within]
        rfl

theorem findNalUnits_eq (data : Bytes) :
    findNalUnits data =
      .ok (nalRanges data.length (markersOf data (codesBelow data data.length))) := by
  rw [findNalUnits]
  have scanned : findMarkers data data.length 0 (markersOf data (codesBelow data 0)) =
      .ok (markersOf data (codesBelow data data.length)) :=
    findMarkers_eq data.length (Nat.zero_le _) (by omega)
  have begun : markersOf data (codesBelow data 0) = [] := rfl
  rw [begun] at scanned
  rw [scanned]
  rfl

/-! ## The ranges -/

/-- The position is in one of the ranges. -/
def InRange (ranges : List (Nat × Nat)) (position : Nat) : Prop :=
  ∃ range ∈ ranges, range.1 ≤ position ∧ position < range.2

/-- Markers in the order of the buffer. -/
structure Ordered (length : Nat) (markers : List Marker) : Prop where
  apart : markers.Pairwise fun marker next => marker.bodyBegin ≤ next.codeBegin
  codes : ∀ marker ∈ markers, marker.codeBegin ≤ marker.bodyBegin
  within : ∀ marker ∈ markers, marker.bodyBegin ≤ length

theorem Ordered.tail {length : Nat} {marker : Marker} {rest : List Marker}
    (ordered : Ordered length (marker :: rest)) : Ordered length rest where
  apart := (List.pairwise_cons.mp ordered.apart).2
  codes := fun other member => ordered.codes other (List.mem_cons_of_mem _ member)
  within := fun other member => ordered.within other (List.mem_cons_of_mem _ member)

theorem inRange_cons {range : Nat × Nat} {ranges : List (Nat × Nat)} :
    InRange (range :: ranges) position ↔
      (range.1 ≤ position ∧ position < range.2) ∨ InRange ranges position := by
  simp [InRange]

/-- The NAL unit before a later code, which is left out when it is empty. -/
theorem inRange_next {length : Nat} (marker next : Marker) (rest : List Marker) :
    InRange (nalRanges length (marker :: next :: rest)) position ↔
      (marker.bodyBegin ≤ position ∧ position < next.codeBegin) ∨
        InRange (nalRanges length (next :: rest)) position := by
  rw [nalRanges]
  split
  · exact inRange_cons
  · rename_i empty
    constructor
    · exact Or.inr
    · rintro (inside | later)
      · omega
      · exact later

/-- The ranges hold everything behind the first code but the later codes. -/
theorem Ordered.inRange_iff {length : Nat} {marker : Marker} {rest : List Marker}
    (ordered : Ordered length (marker :: rest)) :
    InRange (nalRanges length (marker :: rest)) position ↔
      marker.bodyBegin ≤ position ∧ position < length ∧
        ∀ later ∈ rest, ¬(later.codeBegin ≤ position ∧ position < later.bodyBegin) := by
  induction rest generalizing marker with
  | nil =>
      rw [nalRanges]
      split
      · simp [InRange]
      · simp [InRange]
        omega
  | cons next rest induction =>
      have apart := List.pairwise_cons.mp ordered.apart
      have nextApart := List.pairwise_cons.mp apart.2
      have here := apart.1 next List.mem_cons_self
      have nextCode := ordered.codes next (by simp)
      have nextWithin := ordered.within next (by simp)
      rw [inRange_next, induction ordered.tail, List.forall_mem_cons]
      constructor
      · rintro (⟨atLeast, below⟩ | ⟨atLeast, below, gaps⟩)
        · refine ⟨atLeast, by omega, by omega, ?_⟩
          intro later member
          have beyond := nextApart.1 later member
          omega
        · exact ⟨by omega, below, by omega, gaps⟩
      · rintro ⟨atLeast, below, noGap, gaps⟩
        by_cases before : position < next.codeBegin
        · exact Or.inl ⟨atLeast, before⟩
        · exact Or.inr ⟨by omega, below, gaps⟩

/-- A range begins behind a code. -/
theorem nalRanges_begin {length : Nat} {markers : List Marker} :
    ∀ range ∈ nalRanges length markers, ∃ marker ∈ markers, range.1 = marker.bodyBegin := by
  fun_induction nalRanges length markers with
  | case1 => simp
  | case2 => simp
  | case3 => simp
  | case4 marker next rest _ induction =>
      intro range member
      rcases List.mem_cons.mp member with first | later
      · exact ⟨marker, List.mem_cons_self, by rw [first]⟩
      · rcases induction range later with ⟨other, among, same⟩
        exact ⟨other, List.mem_cons_of_mem _ among, same⟩
  | case5 marker next rest _ induction =>
      intro range member
      rcases induction range member with ⟨other, among, same⟩
      exact ⟨other, List.mem_cons_of_mem _ among, same⟩

theorem Ordered.ranges {length : Nat} {markers : List Marker} (ordered : Ordered length markers) :
    (nalRanges length markers).Pairwise fun range next => range.2 ≤ next.1 := by
  fun_induction nalRanges length markers with
  | case1 => exact List.Pairwise.nil
  | case2 => exact List.pairwise_singleton _ _
  | case3 => exact List.Pairwise.nil
  | case4 marker next rest _ induction =>
      refine List.pairwise_cons.mpr ⟨?_, induction ordered.tail⟩
      intro range member
      rcases nalRanges_begin range member with ⟨other, among, begins⟩
      have nextCode := ordered.codes next (by simp)
      rw [begins]
      rcases List.mem_cons.mp among with rfl | later
      · exact nextCode
      · have beyond := (List.pairwise_cons.mp ordered.tail.apart).1 other later
        have otherCode := ordered.tail.codes other among
        omega
  | case5 marker next rest _ induction => exact induction ordered.tail

theorem codesBelow_pairwise (data : Bytes) (bound : Nat) :
    (codesBelow data bound).Pairwise fun code next =>
      code < next ∧ CodeAt data code ∧ CodeAt data next := by
  have increasing : (codesBelow data bound).Pairwise (· < ·) :=
    List.Pairwise.filter _ List.pairwise_lt_range
  refine increasing.imp_of_mem ?_
  intro code next isCode isNext before
  exact ⟨before, (mem_codesBelow.mp isCode).2, (mem_codesBelow.mp isNext).2⟩

theorem markersOf_ordered {codes : List Nat}
    (apart : codes.Pairwise fun code next => code < next ∧ CodeAt data code ∧ CodeAt data next)
    (areCodes : ∀ code ∈ codes, CodeAt data code) :
    Ordered data.length (markersOf data codes) := by
  cases codes with
  | nil => exact ⟨List.Pairwise.nil, by simp [markersOf], by simp [markersOf]⟩
  | cons first rest =>
      rcases List.pairwise_cons.mp apart with ⟨firstApart, restApart⟩
      have later : ∀ code ∈ rest, first + 3 ≤ codeStart data code ∧ codeStart data code ≤ code := by
        intro code member
        rcases firstApart code member with ⟨before, firstCode, isCode⟩
        exact firstCode.codeStart_after isCode before
      refine ⟨List.pairwise_cons.mpr ⟨?_, List.pairwise_map.mpr (restApart.imp ?_)⟩, ?_, ?_⟩
      · intro marker member
        rcases List.mem_map.mp member with ⟨code, among, rfl⟩
        exact (later code among).1
      · intro code next ⟨before, isCode, isNext⟩
        exact (isCode.codeStart_after isNext before).1
      · intro marker member
        rcases List.mem_cons.mp member with rfl | among
        · exact Nat.le_add_right _ _
        · rcases List.mem_map.mp among with ⟨code, inRest, rfl⟩
          exact Nat.le_trans (later code inRest).2 (Nat.le_add_right _ _)
      · intro marker member
        rcases List.mem_cons.mp member with rfl | among
        · exact (areCodes first List.mem_cons_self).inside
        · rcases List.mem_map.mp among with ⟨code, inRest, rfl⟩
          exact (areCodes code (List.mem_cons_of_mem _ inRest)).inside

theorem ordered_codesBelow (data : Bytes) (bound : Nat) :
    Ordered data.length (markersOf data (codesBelow data bound)) :=
  markersOf_ordered (codesBelow_pairwise data bound)
    fun _ member => (mem_codesBelow.mp member).2

/-! ## The parts of a buffer -/

def InCode (data : Bytes) (position : Nat) : Prop :=
  ∃ code, CodeAt data code ∧ code ≤ position ∧ position < code + 3

/-- A zero directly before a start code. -/
def ZeroBeforeCode (data : Bytes) (position : Nat) : Prop :=
  data[position]? = some 0 ∧ CodeAt data (position + 1)

def ExactlyOne (first second third : Prop) : Prop :=
  (first ∧ ¬second ∧ ¬third) ∨ (¬first ∧ second ∧ ¬third) ∨ (¬first ∧ ¬second ∧ third)

theorem InCode.not_zeroBeforeCode (inside : InCode data position) :
    ¬ZeroBeforeCode data position := by
  rintro ⟨zero, next⟩
  rcases inside with ⟨code, isCode, atLeast, below⟩
  have apart := isCode.apart next (by omega)
  have last : position = code + 2 := by omega
  rw [last, isCode.2.2] at zero
  cases zero

/-- A later code with its extra zero. -/
theorem codeStart_le_iff {code : Nat} (positive : 1 ≤ code) (isCode : CodeAt data code) :
    (codeStart data code ≤ position ∧ position < code + 3) ↔
      (code ≤ position ∧ position < code + 3) ∨
        (position + 1 = code ∧ ZeroBeforeCode data position) := by
  rw [codeStart]
  constructor
  · rintro ⟨atLeast, below⟩
    split at atLeast
    · rename_i zero
      by_cases before : position + 1 = code
      · rw [← before, Nat.add_sub_cancel] at zero
        exact Or.inr ⟨before, zero, before ▸ isCode⟩
      · exact Or.inl (by omega)
    · exact Or.inl ⟨atLeast, below⟩
  · rintro (⟨atLeast, below⟩ | ⟨rfl, zero, _⟩)
    · split
      · omega
      · exact ⟨atLeast, below⟩
    · rw [Nat.add_sub_cancel, if_pos zero]
      omega

theorem markersOf_codesBelow {first : Nat} {rest : List Nat}
    (codes : codesBelow data data.length = first :: rest) :
    Ordered data.length (markersOf data (first :: rest)) ∧
      (∀ code ∈ rest, first < code ∧ CodeAt data code) ∧ CodeAt data first ∧
        ∀ code, CodeAt data code → first ≤ code := by
  have ordered := ordered_codesBelow data data.length
  have apart := codesBelow_pairwise data data.length
  have firstIsCode : first ∈ codesBelow data data.length → CodeAt data first :=
    fun member => (mem_codesBelow.mp member).2
  have isMember : ∀ code, CodeAt data code → code ∈ codesBelow data data.length :=
    fun code isCode => isCode.mem_codesBelow
  rw [codes] at ordered apart firstIsCode isMember
  rcases List.pairwise_cons.mp apart with ⟨firstApart, _⟩
  refine ⟨ordered, ?_, firstIsCode List.mem_cons_self, ?_⟩
  · intro code member
    exact ⟨(firstApart code member).1, (firstApart code member).2.2⟩
  · intro code isCode
    rcases List.mem_cons.mp (isMember code isCode) with rfl | later
    · exact Nat.le_refl _
    · exact Nat.le_of_lt (firstApart code later).1

/-- Behind the first code the ranges are what is neither a code nor a zero before
one. -/
theorem inRange_iff {first : Nat} (isCode : CodeAt data first) (behind : first ≤ position)
    (inside : position < data.length) :
    InRange (nalRanges data.length (markersOf data (codesBelow data data.length))) position ↔
      ¬InCode data position ∧ ¬ZeroBeforeCode data position := by
  cases codes : codesBelow data data.length with
  | nil =>
      have member := isCode.mem_codesBelow
      rw [codes] at member
      cases member
  | cons earliest rest =>
      rcases markersOf_codesBelow codes with ⟨ordered, later, earliestCode, isEarliest⟩
      have fromEarliest := isEarliest first isCode
      have among : ∀ code, CodeAt data code → code = earliest ∨ code ∈ rest := by
        intro code otherCode
        have member := otherCode.mem_codesBelow
        rw [codes] at member
        exact List.mem_cons.mp member
      rw [markersOf] at ordered ⊢
      rw [ordered.inRange_iff, List.forall_mem_map]
      dsimp only
      constructor
      · rintro ⟨atLeast, _, gaps⟩
        constructor
        · rintro ⟨code, otherCode, begins, ends⟩
          rcases among code otherCode with rfl | inRest
          · omega
          · exact gaps code inRest ((codeStart_le_iff (by omega) otherCode).mpr
              (Or.inl ⟨begins, ends⟩))
        · rintro ⟨zero, next⟩
          rcases among (position + 1) next with same | inRest
          · omega
          · exact gaps _ inRest ((codeStart_le_iff (by omega) next).mpr
              (Or.inr ⟨rfl, zero, next⟩))
      · rintro ⟨noCode, noZero⟩
        refine ⟨?_, inside, ?_⟩
        · by_contra within
          exact noCode ⟨earliest, earliestCode, by omega, by omega⟩
        · intro code inRest gap
          rcases later code inRest with ⟨after, otherCode⟩
          rcases (codeStart_le_iff (by omega) otherCode).mp gap with holds | ⟨_, zero⟩
          · exact noCode ⟨code, otherCode, holds⟩
          · exact noZero zero

/-- The ranges of NAL units in a buffer. -/
structure Partition (data : Bytes) (ranges : List (Nat × Nat)) : Prop where
  proper : ∀ range ∈ ranges, range.1 < range.2 ∧ range.2 ≤ data.length
  ordered : ranges.Pairwise fun range next => range.2 ≤ next.1
  codeFree : ∀ range ∈ ranges, ∀ position, range.1 ≤ position → position + 3 ≤ range.2 →
    ¬CodeAt data position
  afterCode : ∀ range ∈ ranges, ∃ code, CodeAt data code ∧ range.1 = code + 3
  exactlyOne : ∀ first position, CodeAt data first → first ≤ position → position < data.length →
    ExactlyOne (InRange ranges position) (InCode data position) (ZeroBeforeCode data position)

theorem mem_markersOf {codes : List Nat} {marker : Marker}
    (member : marker ∈ markersOf data codes) :
    ∃ code ∈ codes, marker.bodyBegin = code + 3 := by
  cases codes with
  | nil => cases member
  | cons first rest =>
      rcases List.mem_cons.mp member with rfl | later
      · exact ⟨first, List.mem_cons_self, rfl⟩
      · rcases List.mem_map.mp later with ⟨code, inRest, rfl⟩
        exact ⟨code, List.mem_cons_of_mem _ inRest, rfl⟩

theorem nalRanges_afterCode (data : Bytes) :
    ∀ range ∈ nalRanges data.length (markersOf data (codesBelow data data.length)),
      ∃ code, CodeAt data code ∧ range.1 = code + 3 := by
  intro range member
  rcases nalRanges_begin range member with ⟨marker, among, begins⟩
  rcases mem_markersOf among with ⟨code, isBelow, body⟩
  exact ⟨code, (mem_codesBelow.mp isBelow).2, begins.trans body⟩

theorem nalRanges_within (data : Bytes) :
    ∀ range ∈ nalRanges data.length (markersOf data (codesBelow data data.length)),
      range.1 < range.2 ∧ range.2 ≤ data.length := by
  have ordered := ordered_codesBelow data data.length
  have bounded := nalRanges_le fun marker member =>
    Nat.le_trans (ordered.codes marker member) (ordered.within marker member)
  exact fun range member => ⟨nalRanges_nonempty _ _ range member, bounded range member⟩

/-- Of any bytes, the scan finds NAL units that leave out nothing behind the first
code but codes and their extra zeros, and `packetizeH264` can read all of them. -/
theorem findNalUnits_partition (data : Bytes) :
    ∃ ranges nals, findNalUnits data = .ok ranges ∧ sliceAll data ranges = .ok nals ∧
      Partition data ranges := by
  have proper := nalRanges_within data
  rcases sliceAll_ok (fun range member => (proper range member).1)
    (fun range member => (proper range member).2) with ⟨nals, sliced⟩
  refine ⟨_, nals, findNalUnits_eq data, sliced, proper, ?_, ?_, nalRanges_afterCode data, ?_⟩
  · exact (ordered_codesBelow data data.length).ranges
  · intro range member position begins ends code
    rcases nalRanges_afterCode data range member with ⟨before, isCode, starts⟩
    have bounded := (proper range member).2
    have behind : before ≤ position := by omega
    have here := (inRange_iff isCode behind (by omega)).mp ⟨range, member, begins, by omega⟩
    exact here.1 ⟨position, code, Nat.le_refl _, by omega⟩
  · intro first position isCode behind inside
    rw [ExactlyOne, inRange_iff isCode behind inside]
    by_cases inCode : InCode data position
    · have noZero := inCode.not_zeroBeforeCode
      exact Or.inr (Or.inl ⟨fun both => both.1 inCode, inCode, noZero⟩)
    · by_cases zero : ZeroBeforeCode data position
      · exact Or.inr (Or.inr ⟨fun both => both.2 zero, inCode, zero⟩)
      · exact Or.inl ⟨⟨inCode, zero⟩, inCode, zero⟩

/-- Two adjacent codes, a long code and zeros at the end. -/
example : findNalUnits [9, 0, 0, 0, 1, 0, 0, 1, 0x65, 7, 0, 0, 0, 1, 0x41, 0, 0] =
    .ok [(8, 10), (14, 17)] := by
  decide

end Vela.RTPHandler
