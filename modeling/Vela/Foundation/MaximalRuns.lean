import Mathlib.Data.List.Chain
import Mathlib.Data.List.Range

/-! # Maximal runs

A scan over the positions `0, 1, …` that lists the maximal runs of those that a
predicate picks out. It remembers the run it is inside of and the finished ones. -/

namespace Vela.Foundation

structure RunScan where
  current : Option (Nat × Nat) := none
  result : List (Nat × Nat) := []

namespace RunScan

/-- The positions from the first to the last of a run. -/
def positions (run : Nat × Nat) : List Nat := List.range' run.1 (run.2 + 1 - run.1)

def visit (picked : Nat → Bool) (scan : RunScan) (position : Nat) : RunScan :=
  if picked position then
    match scan.current with
    | none => { scan with current := some (position, position) }
    | some run => { scan with current := some (run.1, position) }
  else
    match scan.current with
    | none => scan
    | some run => { current := none, result := scan.result ++ [run] }

def scanned (picked : Nat → Bool) (count : Nat) : RunScan :=
  (List.range count).foldl (visit picked) {}

variable {picked : Nat → Bool} {count : Nat} {scan : RunScan}

/-- A run cannot be longer at its start. -/
def Starts (picked : Nat → Bool) (run : Nat × Nat) : Prop :=
  run.1 ≤ run.2 ∧ (run.1 = 0 ∨ picked (run.1 - 1) = false)

/-- What holds after the positions below `count`. -/
structure Scanned (picked : Nat → Bool) (count : Nat) (scan : RunScan) : Prop where
  covers : scan.result.flatMap positions ++ scan.current.toList.flatMap positions =
    (List.range count).filter picked
  starts : ∀ run ∈ scan.result, Starts picked run
  stops : ∀ run ∈ scan.result, run.2 + 1 < count ∧ picked (run.2 + 1) = false
  apart : scan.result.IsChain fun run next => run.2 + 1 < next.1
  inside : ∀ run ∈ scan.current, Starts picked run ∧ run.2 + 1 = count ∧ picked run.2 = true ∧
    ∀ last ∈ scan.result.getLast?, last.2 + 1 < run.1
  outside : scan.current = none → count = 0 ∨ picked (count - 1) = false

theorem Scanned.initially (picked : Nat → Bool) : Scanned picked 0 {} where
  covers := rfl
  starts := fun _ member => absurd member List.not_mem_nil
  stops := fun _ member => absurd member List.not_mem_nil
  apart := .nil
  inside := fun _ member => absurd member (Option.not_mem_none _)
  outside := fun _ => .inl rfl

theorem range_filter_succ (picked : Nat → Bool) (count : Nat) :
    (List.range (count + 1)).filter picked =
      (List.range count).filter picked ++ if picked count then [count] else [] := by
  rw [List.range_succ, List.filter_append, List.filter_singleton, Bool.cond_eq_ite]

theorem positions_single (position : Nat) : positions (position, position) = [position] := by
  have one : position + 1 - position = 1 := by omega
  rw [positions, one]
  rfl

theorem positions_grow {first last : Nat} (order : first ≤ last) :
    positions (first, last + 1) = positions (first, last) ++ [last + 1] := by
  have longer : last + 1 + 1 - first = (last + 1 - first) + 1 := by omega
  have next : first + 1 * (last + 1 - first) = last + 1 := by omega
  simp only [positions, longer]
  rw [List.range'_concat, next]

theorem Scanned.visit (scanned : Scanned picked count scan) :
    Scanned picked (count + 1) (scan.visit picked count) := by
  rcases scan with ⟨current, result⟩
  have covers := scanned.covers
  have later : ∀ run ∈ result, run.2 + 1 < count + 1 ∧ picked (run.2 + 1) = false := by
    intro run member
    have stops := scanned.stops run member
    exact ⟨by omega, stops.2⟩
  unfold RunScan.visit
  cases isPicked : picked count with
  | true =>
      cases current with
      | none =>
          refine ⟨?_, scanned.starts, later, scanned.apart, ?_, nofun⟩
          · rw [range_filter_succ, isPicked, ← covers]
            simp [positions_single]
          · intro run isRun
            cases isRun
            refine ⟨⟨Nat.le_refl _, scanned.outside rfl⟩, rfl, isPicked, ?_⟩
            intro last isLast
            exact (scanned.stops last (List.mem_of_getLast? isLast)).1
      | some run =>
          rcases scanned.inside run rfl with ⟨starts, ends, _, before⟩
          have order := starts.1
          refine ⟨?_, scanned.starts, later, scanned.apart, ?_, nofun⟩
          · have grown := positions_grow order
            rw [ends] at grown
            rw [range_filter_succ, isPicked, ← covers]
            simp [grown]
          · intro longer isLonger
            cases isLonger
            exact ⟨⟨by omega, starts.2⟩, rfl, isPicked, before⟩
  | false =>
      cases current with
      | none =>
          refine ⟨?_, scanned.starts, later, scanned.apart, nofun, fun _ => .inr isPicked⟩
          rw [range_filter_succ, isPicked, ← covers]
          simp
      | some run =>
          rcases scanned.inside run rfl with ⟨starts, ends, _, before⟩
          refine ⟨?_, ?_, ?_, ?_, nofun, fun _ => .inr isPicked⟩
          · rw [range_filter_succ, isPicked, ← covers]
            simp
          · intro other member
            rcases List.mem_append.mp member with old | new
            · exact scanned.starts other old
            · rw [List.mem_singleton.mp new]
              exact starts
          · intro other member
            rcases List.mem_append.mp member with old | new
            · exact later other old
            · rw [List.mem_singleton.mp new, ends]
              exact ⟨Nat.lt_succ_self _, isPicked⟩
          · apply List.IsChain.append scanned.apart (List.isChain_singleton _)
            intro last isLast other isOther
            cases isOther
            exact before last isLast

theorem scanned_all (picked : Nat → Bool) (count : Nat) :
    Scanned picked count (scanned picked count) := by
  induction count with
  | zero => exact Scanned.initially picked
  | succ count induction =>
      rw [scanned, List.range_succ, List.foldl_append]
      exact induction.visit

/-- A scan that ends at a position that is not picked is inside of no run. -/
theorem Scanned.current_eq_none (scanned : Scanned picked (count + 1) scan)
    (unpicked : picked count = false) : scan.current = none := by
  cases isCurrent : scan.current with
  | none => rfl
  | some run =>
      rcases scanned.inside run isCurrent with ⟨_, ends, isPicked, _⟩
      have atEnd : run.2 = count := by omega
      rw [atEnd, unpicked] at isPicked
      cases isPicked

end RunScan

end Vela.Foundation
