import Vela.Foundation.MaximalRuns
import Vela.Network.JitterBufferCompleteness

/-! # Gap reports

The loop of `gaps` counts in 16 bits and leaves only at the greatest number of a
frame. It comes to its exit, and what it reports are the maximal runs of numbers
that the frame does not hold. -/

namespace Vela

open Foundation SerialNumber

namespace PendingFrame

/-! ## The loop -/

/-- The variables of the loop of `gaps` over one frame. -/
structure GapLoop where
  expected : BitVec 16
  inGap : Bool := false
  cur : SequenceGap := ⟨0, 0⟩
  result : List SequenceGap

namespace GapLoop

/-- One round, up to the test of the exit. -/
def body (frame : PendingFrame) (loop : GapLoop) : GapLoop :=
  if !frame.holds loop.expected then
    { loop with
      inGap := true
      cur :=
        { firstMissing := if loop.inGap then loop.cur.firstMissing else loop.expected
          lastMissing := loop.expected } }
  else if loop.inGap then { loop with inGap := false, result := loop.result ++ [loop.cur] }
  else loop

/-- The loop, unless it takes more than the given rounds. -/
def run (frame : PendingFrame) : Nat → GapLoop → Option (List SequenceGap)
  | 0, _ => none
  | rounds + 1, loop =>
      let after := loop.body frame
      if after.expected == frame.maxSeq then
        some (if after.inGap then after.result ++ [after.cur] else after.result)
      else run frame rounds { after with expected := after.expected + 1 }

/-- The variables as the walk along the arc has them. -/
def walk (loop : GapLoop) : GapWalk where
  current := if loop.inGap then some loop.cur else none
  result := loop.result

variable {frame : PendingFrame} {loop : GapLoop}

@[simp] theorem body_expected : (loop.body frame).expected = loop.expected := by
  unfold body
  split
  · rfl
  · split <;> rfl

theorem body_walk : (loop.body frame).walk = GapWalk.visit frame loop.walk loop.expected := by
  rcases loop with ⟨expected, inGap, cur, result⟩
  unfold body GapWalk.visit
  cases frame.holds expected <;> cases inGap <;> rfl

/-- A loop that has at least as many rounds as there are numbers up to the
greatest comes to its exit there. -/
theorem run_eq {steps rounds : Nat} (enough : steps < rounds)
    (ahead : forward loop.expected frame.maxSeq = steps) :
    run frame rounds loop =
      some ((arcFrom loop.expected steps).foldl (GapWalk.visit frame) loop.walk).finish := by
  induction steps generalizing rounds loop with
  | zero =>
      rcases rounds with _ | rounds
      · omega
      have atEnd := forward_eq_zero.mp ahead
      rw [run, body_expected, atEnd, beq_self_eq_true, if_pos rfl, arcFrom, List.foldl_cons,
        List.foldl_nil, ← atEnd, ← body_walk, GapWalk.finish, walk]
      cases (loop.body frame).inGap <;> simp
  | succ steps induction =>
      rcases rounds with _ | rounds
      · omega
      have different : loop.expected ≠ frame.maxSeq := by
        intro same
        rw [same, forward_self] at ahead
        omega
      have closer := forward_succ different
      rw [run, body_expected, beq_false_of_ne different, if_neg Bool.false_ne_true,
        induction (by omega) (by simp only; omega), arcFrom, List.foldl_cons, ← body_walk]
      rfl

end GapLoop

/-- The loop of `gaps` over the pending frames. -/
def gapsLoop (rounds : Nat) :
    List (BitVec 32 × PendingFrame) → List SequenceGap → Option (List SequenceGap)
  | [], result => some result
  | (_, frame) :: rest, result =>
      if !frame.seqInit || frame.packets.entries.isEmpty then gapsLoop rounds rest result
      else
        match GapLoop.run frame rounds { expected := frame.minSeq, result } with
        | none => none
        | some result => gapsLoop rounds rest result

variable {frame : PendingFrame}

theorem finish_after (earlier : List SequenceGap) (walk : GapWalk) (seqs : List (BitVec 16)) :
    (seqs.foldl (GapWalk.visit frame) { walk with result := earlier ++ walk.result }).finish =
      earlier ++ (seqs.foldl (GapWalk.visit frame) walk).finish := by
  induction seqs generalizing walk with
  | nil => simp [GapWalk.finish]
  | cons seq rest induction =>
      have step : GapWalk.visit frame { walk with result := earlier ++ walk.result } seq =
          { GapWalk.visit frame walk seq with
            result := earlier ++ (GapWalk.visit frame walk seq).result } := by
        rcases walk with ⟨current, result⟩
        unfold GapWalk.visit
        cases frame.holds seq <;> cases current <;> simp
      rw [List.foldl_cons, List.foldl_cons, step, induction]

/-- `gaps` terminates: once around the 16-bit circle is enough for each frame. -/
theorem gapsLoop_eq (entries : List (BitVec 32 × PendingFrame)) (result : List SequenceGap) :
    gapsLoop (2 ^ 16) entries result =
      some (result ++ entries.flatMap fun entry => entry.2.gaps) := by
  induction entries generalizing result with
  | nil => simp [gapsLoop]
  | cons entry rest induction =>
      rcases entry with ⟨key, frame⟩
      rw [gapsLoop, List.flatMap_cons, gaps]
      split
      · rw [induction, List.nil_append]
      · have reported := @finish_after frame result {} frame.arc
        rw [GapLoop.run_eq (forward_lt frame.minSeq frame.maxSeq) rfl]
        simp only [GapLoop.walk, Bool.false_eq_true, if_false, induction]
        simp only [List.append_nil] at reported
        rw [← List.append_assoc, ← reported]
        rfl

/-! ## What is reported -/

end PendingFrame

/-- The numbers of a gap, from the first missing one to the last. -/
def SequenceGap.numbers (gap : SequenceGap) : List (BitVec 16) :=
  SerialNumber.arc gap.firstMissing gap.lastMissing

namespace PendingFrame

/-- `gaps` are the maximal runs of numbers on the arc of `frame` that it does not
hold, in arc order. -/
structure ExactGaps (frame : PendingFrame) (gaps : List SequenceGap) : Prop where
  covers : gaps.flatMap SequenceGap.numbers = frame.arc.filter fun seq => !frame.holds seq
  onceEach : ∀ seq ∈ frame.arc, frame.holds seq = false →
    ∃! gap, gap ∈ gaps ∧ seq ∈ gap.numbers
  noneHeld : ∀ gap ∈ gaps, ∀ seq ∈ gap.numbers, seq ∈ frame.arc ∧ frame.holds seq = false
  maximal : ∀ gap ∈ gaps,
    (gap.firstMissing - 1 ∈ frame.arc ∧ frame.holds (gap.firstMissing - 1) = true) ∧
    (gap.lastMissing + 1 ∈ frame.arc ∧ frame.holds (gap.lastMissing + 1) = true)
  separated : gaps.IsChain fun gap next => ∃ seq ∈ frame.arc, frame.holds seq = true ∧
    forward frame.minSeq gap.lastMissing < forward frame.minSeq seq ∧
    forward frame.minSeq seq < forward frame.minSeq next.firstMissing

/-- The number at a position of the arc. -/
def number (frame : PendingFrame) (position : Nat) : BitVec 16 :=
  frame.minSeq + BitVec.ofNat 16 position

def missing (frame : PendingFrame) (position : Nat) : Bool := !frame.holds (frame.number position)

def gapAt (frame : PendingFrame) (run : Nat × Nat) : SequenceGap :=
  ⟨frame.number run.1, frame.number run.2⟩

variable {frame : PendingFrame}

theorem arc_eq (frame : PendingFrame) :
    frame.arc = (List.range (forward frame.minSeq frame.maxSeq + 1)).map frame.number :=
  arcFrom_eq_map _ _

theorem forward_number {position : Nat} (small : position < 2 ^ 16) :
    forward frame.minSeq (frame.number position) = position :=
  forward_add_ofNat _ small

theorem number_succ (position : Nat) : frame.number (position + 1) = frame.number position + 1 := by
  rw [number, number, BitVec.ofNat_add, ← BitVec.add_assoc]
  rfl

theorem number_mem_arc {position : Nat} (within : position ≤ forward frame.minSeq frame.maxSeq) :
    frame.number position ∈ frame.arc := by
  rw [arc_eq]
  exact List.mem_map_of_mem (List.mem_range.mpr (by omega))

/-- The walk along the arc is a scan of its positions. -/
theorem foldl_arc (frame : PendingFrame) (count : Nat) :
    ((List.range count).map frame.number).foldl (GapWalk.visit frame) {} =
      { current := (RunScan.scanned frame.missing count).current.map frame.gapAt
        result := (RunScan.scanned frame.missing count).result.map frame.gapAt } := by
  induction count with
  | zero => rfl
  | succ count induction =>
      rw [RunScan.scanned, List.range_succ, List.map_append, List.foldl_append, List.foldl_append,
        ← RunScan.scanned, induction]
      generalize RunScan.scanned frame.missing count = scan
      rcases scan with ⟨current, result⟩
      simp only [List.map_cons, List.map_nil, List.foldl_cons, List.foldl_nil, GapWalk.visit,
        RunScan.visit, missing]
      rcases Bool.eq_false_or_eq_true (frame.holds (frame.number count)) with held | held <;>
        cases current <;> simp [gapAt, held]

theorem numbers_gapAt {run : Nat × Nat} (order : run.1 ≤ run.2) (small : run.2 < 2 ^ 16) :
    (frame.gapAt run).numbers = (RunScan.positions run).map frame.number := by
  have split : frame.number run.2 = frame.number run.1 + BitVec.ofNat 16 (run.2 - run.1) := by
    rw [number, number, BitVec.add_assoc, ← BitVec.ofNat_add, Nat.add_sub_cancel' order]
  have length : run.2 + 1 - run.1 = (run.2 - run.1) + 1 := by omega
  rw [SequenceGap.numbers, gapAt, SerialNumber.arc, arcFrom_eq_map, split,
    forward_add_ofNat _ (show run.2 - run.1 < 2 ^ 16 by omega), RunScan.positions, length,
    List.range'_eq_map_range, List.map_map]
  apply List.map_congr_left
  intro offset _
  rw [Function.comp_apply, number, number, BitVec.ofNat_add, BitVec.add_assoc]

/-- Lists that share no element and none of whose lists repeats one, told apart
by any element. -/
theorem eq_of_mem_flatMap {Item Part : Type} {items : List Item} {parts : Item → List Part}
    (nodup : (items.flatMap parts).Nodup) {left right : Item} (leftMem : left ∈ items)
    (rightMem : right ∈ items) {part : Part} (inLeft : part ∈ parts left)
    (inRight : part ∈ parts right) : left = right := by
  have disjoint := (List.nodup_flatMap.mp nodup).2
  have symmetric : Std.Symm (Function.onFun List.Disjoint parts) :=
    ⟨fun _ _ disjoint => disjoint.symm⟩
  by_contra different
  exact disjoint.forall leftMem rightMem different inLeft inRight

/-- The two ends of the arc are held, so that every run lies between held numbers. -/
theorem Filed.ends_held (filed : Filed frame) :
    frame.missing 0 = false ∧ frame.missing (forward frame.minSeq frame.maxSeq) = false := by
  have first : frame.number 0 = frame.minSeq := BitVec.add_zero _
  have last : frame.number (forward frame.minSeq frame.maxSeq) = frame.maxSeq := add_forward _ _
  rw [missing, missing, first, last, filed.holds_iff.mpr filed.minHeld,
    filed.holds_iff.mpr filed.maxHeld]
  exact ⟨rfl, rfl⟩

theorem Filed.gaps_eq (filed : Filed frame) :
    frame.gaps =
      (RunScan.scanned frame.missing (forward frame.minSeq frame.maxSeq + 1)).result.map
        frame.gapAt := by
  have scan := RunScan.scanned_all frame.missing (forward frame.minSeq frame.maxSeq + 1)
  have closed := scan.current_eq_none filed.ends_held.2
  rw [gaps, filed.started, List.isEmpty_eq_false_iff.mpr filed.nonempty, arc_eq, foldl_arc, closed]
  exact List.append_nil _

/-- A finished run of the scan: it lies within the arc, its positions are missing,
and those right before and right after it are not. -/
theorem Filed.run_bounds (filed : Filed frame) {run : Nat × Nat}
    (member : run ∈ (RunScan.scanned frame.missing
      (forward frame.minSeq frame.maxSeq + 1)).result) :
    1 ≤ run.1 ∧ run.1 ≤ run.2 ∧ run.2 + 1 ≤ forward frame.minSeq frame.maxSeq ∧
      frame.holds (frame.number (run.1 - 1)) = true ∧
      frame.holds (frame.number (run.2 + 1)) = true := by
  have scan := RunScan.scanned_all frame.missing (forward frame.minSeq frame.maxSeq + 1)
  rcases scan.starts run member with ⟨order, start⟩
  rcases scan.stops run member with ⟨within, stop⟩
  have positive : run.1 ≠ 0 := by
    intro atStart
    have inside : run.1 ∈ RunScan.positions run := by
      rw [RunScan.positions, List.mem_range'_1]
      omega
    have listed := List.mem_append_left
      ((RunScan.scanned frame.missing
        (forward frame.minSeq frame.maxSeq + 1)).current.toList.flatMap
        RunScan.positions)
      (List.mem_flatMap.mpr ⟨run, member, inside⟩)
    rw [scan.covers, List.mem_filter, atStart, filed.ends_held.1] at listed
    cases listed.2
  have before := start.resolve_left positive
  rw [missing, Bool.not_eq_false'] at before stop
  exact ⟨by omega, order, by omega, before, stop⟩

theorem Filed.covers (filed : Filed frame) :
    frame.gaps.flatMap SequenceGap.numbers = frame.arc.filter fun seq => !frame.holds seq := by
  have bound := forward_lt frame.minSeq frame.maxSeq
  have scan := RunScan.scanned_all frame.missing (forward frame.minSeq frame.maxSeq + 1)
  have listed := scan.covers
  rw [scan.current_eq_none filed.ends_held.2, Option.toList_none, List.flatMap_nil,
    List.append_nil] at listed
  have asNumbers : ∀ run ∈ (RunScan.scanned frame.missing
      (forward frame.minSeq frame.maxSeq + 1)).result,
      (frame.gapAt run).numbers = (RunScan.positions run).map frame.number := by
    intro run member
    rcases filed.run_bounds member with ⟨_, order, within, _⟩
    exact numbers_gapAt order (by omega)
  rw [filed.gaps_eq, List.flatMap_map, List.flatMap_congr asNumbers, ← List.map_flatMap, listed,
    arc_eq, List.filter_map]
  rfl

theorem Filed.exactGaps (filed : Filed frame) : ExactGaps frame frame.gaps := by
  have bound := forward_lt frame.minSeq frame.maxSeq
  have covers := filed.covers
  have inRun : ∀ seq, (∃ gap ∈ frame.gaps, seq ∈ gap.numbers) ↔
      seq ∈ frame.arc ∧ frame.holds seq = false := by
    intro seq
    rw [← List.mem_flatMap, covers, List.mem_filter, Bool.not_eq_true']
  have nodup : (frame.gaps.flatMap SequenceGap.numbers).Nodup := by
    rw [covers]
    exact (arc_nodup _ _).filter _
  refine ⟨covers, ?_, ?_, ?_, ?_⟩
  · intro seq onArc absent
    rcases (inRun seq).mpr ⟨onArc, absent⟩ with ⟨gap, reported, inside⟩
    refine ⟨gap, ⟨reported, inside⟩, ?_⟩
    rintro other ⟨otherReported, otherInside⟩
    exact eq_of_mem_flatMap nodup otherReported reported otherInside inside
  · exact fun gap reported seq inside => (inRun seq).mp ⟨gap, reported, inside⟩
  · intro gap reported
    rw [filed.gaps_eq] at reported
    rcases List.mem_map.mp reported with ⟨run, member, rfl⟩
    rcases filed.run_bounds member with ⟨positive, order, within, before, after⟩
    have first : (frame.gapAt run).firstMissing - 1 = frame.number (run.1 - 1) := by
      have next := @number_succ frame (run.1 - 1)
      rw [Nat.sub_add_cancel positive] at next
      rw [gapAt, next, BitVec.add_sub_cancel]
    have last : (frame.gapAt run).lastMissing + 1 = frame.number (run.2 + 1) :=
      (number_succ run.2).symm
    rw [first, last]
    exact ⟨⟨number_mem_arc (by omega), before⟩, number_mem_arc within, after⟩
  · rw [filed.gaps_eq, List.isChain_map]
    have apart := (RunScan.scanned_all frame.missing
      (forward frame.minSeq frame.maxSeq + 1)).apart
    apply apart.imp_of_mem_imp
    intro run next member nextMember before
    rcases filed.run_bounds member with ⟨_, _, within, _, after⟩
    rcases filed.run_bounds nextMember with ⟨_, nextOrder, nextWithin, _⟩
    refine ⟨frame.number (run.2 + 1), number_mem_arc within, after, ?_⟩
    rw [gapAt, gapAt, forward_number (by omega), forward_number (by omega),
      forward_number (by omega)]
    exact ⟨Nat.lt_succ_self _, before⟩

end PendingFrame

namespace JitterBuffer

open PendingFrame

/-- In every state of a run the loop of `gaps` comes to its end, and reports for
each pending frame the maximal runs of numbers on its arc of which that frame
holds no packet. -/
theorem gaps_exact (search : FrameSearch) (config : JitterBufferConfig) (events : List Event) :
    let buffer := (machine search config).run events
    gapsLoop (2 ^ 16) buffer.frames.entries [] = some buffer.gaps ∧
      buffer.gaps = (buffer.frames.entries.flatMap fun entry => entry.2.gaps) ∧
      ∀ entry ∈ buffer.frames.entries, ExactGaps entry.2 entry.2.gaps := by
  intro buffer
  refine ⟨gapsLoop_eq buffer.frames.entries [], rfl, ?_⟩
  exact fun entry member => (filed_run search config events entry member).exactGaps

/-- Numbers 1 and 3 under one timestamp and number 2 under another: 2 is reported
missing, although it is in the buffer. -/
theorem number_of_another_frame_reported :
    let buffer := (machine (.linear _) {}).run [.push { timestamp := 9000, sequenceNumber := 1 } 0,
      .push { timestamp := 9000, sequenceNumber := 3 } 0,
      .push { timestamp := 18000, sequenceNumber := 2 } 0]
    (⟨2, 2⟩ : SequenceGap) ∈ buffer.gaps ∧
      ∃ entry ∈ buffer.frames.entries, entry.2.holds 2 = true := by
  decide

end JitterBuffer

end Vela
