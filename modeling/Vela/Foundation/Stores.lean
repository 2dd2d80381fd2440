import Mathlib.Data.List.Flatten
import Mathlib.Data.List.Perm.Basic
import Mathlib.Data.List.Range

/-! # Stores into a buffer

Loops that write values to the offsets of a buffer, and the planes of a picture, one
row of a plane behind the other. -/

namespace Vela.Foundation

/-- A value written at an offset. -/
structure Store (Value : Type u) where
  offset : Nat
  value : Value
  deriving DecidableEq, Repr

namespace Store

variable {Value : Type u} {memory : Nat → Value} {stores : List (Store Value)}

/-- The memory after the stores, the first of them first. -/
def apply (memory : Nat → Value) : List (Store Value) → Nat → Value
  | [] => memory
  | store :: later =>
      apply (fun offset => if offset = store.offset then store.value else memory offset) later

theorem apply_of_not_mem {offset : Nat} (notMember : offset ∉ stores.map Store.offset) :
    apply memory stores offset = memory offset := by
  induction stores generalizing memory with
  | nil => rfl
  | cons store later induction =>
      rw [List.map_cons, List.mem_cons, not_or] at notMember
      rw [apply, induction notMember.2, if_neg notMember.1]

/-- What is written once stays. -/
theorem apply_of_mem (once : (stores.map Store.offset).Nodup) {store : Store Value}
    (member : store ∈ stores) : apply memory stores store.offset = store.value := by
  induction stores generalizing memory with
  | nil => cases member
  | cons first later induction =>
      rcases List.nodup_cons.mp once with ⟨notLater, laterOnce⟩
      rw [apply]
      rcases List.mem_cons.mp member with rfl | inLater
      · rw [apply_of_not_mem notLater, if_pos rfl]
      · exact induction laterOnce inLater

/-! ## Loops -/

variable {failure : Type v}

/-- The stores of a loop that counts from zero. -/
def loop : (count : Nat) → (Nat → Except failure (List (Store Value))) →
    Except failure (List (Store Value))
  | 0, _ => return []
  | count + 1, body => do
      let earlier ← loop count body
      let last ← body count
      return earlier ++ last

theorem loop_eq {count : Nat} {body : Nat → Except failure (List (Store Value))}
    {result : Nat → List (Store Value)}
    (each : ∀ index, index < count → body index = .ok (result index)) :
    loop count body = .ok ((List.range count).flatMap result) := by
  induction count with
  | zero => rfl
  | succ count induction =>
      have earlier := induction fun index below => each index (Nat.lt_succ_of_lt below)
      rw [loop, earlier, each count (Nat.lt_succ_self count), List.range_succ,
        List.flatMap_append, List.flatMap_singleton]
      rfl

/-! ## Planes -/

/-- A plane of rows without anything between them. -/
def plane (base width height : Nat) (value : Nat → Nat → Value) : List (Store Value) :=
  (List.range height).flatMap fun y =>
    (List.range width).map fun x => ⟨base + y * width + x, value x y⟩

theorem mem_plane {base width height x y : Nat} (value : Nat → Nat → Value) (column : x < width)
    (row : y < height) : ⟨base + y * width + x, value x y⟩ ∈ plane base width height value :=
  List.mem_flatMap.mpr ⟨y, List.mem_range.mpr row, List.mem_map.mpr
    ⟨x, List.mem_range.mpr column, rfl⟩⟩

theorem of_mem_plane {base width height : Nat} {value : Nat → Nat → Value} {store : Store Value}
    (member : store ∈ plane base width height value) :
    ∃ x y, x < width ∧ y < height ∧ store.value = value x y := by
  rcases List.mem_flatMap.mp member with ⟨y, row, inRow⟩
  rcases List.mem_map.mp inRow with ⟨x, column, rfl⟩
  exact ⟨x, y, List.mem_range.mp column, List.mem_range.mp row, rfl⟩

/-- A plane takes the offsets from its base on. -/
theorem plane_offsets (base width height : Nat) (value : Nat → Nat → Value) :
    (plane base width height value).map Store.offset = List.range' base (height * width) := by
  induction height with
  | zero => simp [plane]
  | succ height induction =>
      have lastRow : (List.range width).map (fun x => base + height * width + x) =
          List.range' (base + height * width) width := by
        rw [List.range_eq_range', List.map_add_range']
        rfl
      rw [plane] at induction ⊢
      rw [List.range_succ, List.flatMap_append, List.map_append, induction, List.flatMap_singleton,
        List.map_map, Nat.succ_mul, ← List.range'_append_1]
      exact congrArg _ lastRow

theorem offset_of_mem_plane {base width height : Nat} {value : Nat → Nat → Value}
    {store : Store Value} (member : store ∈ plane base width height value) :
    base ≤ store.offset ∧ store.offset < base + height * width := by
  have isOffset := List.mem_map_of_mem (f := Store.offset) member
  rw [plane_offsets] at isOffset
  exact List.mem_range'_1.mp isOffset

/-- A plane and, whenever one of its values is stored, the value of another plane. -/
theorem interleaved_perm (base other width height : Nat) (value otherValue : Nat → Nat → Value) :
    ((List.range height).flatMap fun y => (List.range width).flatMap fun x =>
        [Store.mk (base + y * width + x) (value x y),
          Store.mk (other + y * width + x) (otherValue x y)]).Perm
      (plane base width height value ++ plane other width height otherValue) := by
  have row : ∀ y ∈ List.range height,
      ((List.range width).flatMap fun x =>
        [Store.mk (base + y * width + x) (value x y),
          Store.mk (other + y * width + x) (otherValue x y)]).Perm
      ((List.range width).map (fun x => Store.mk (base + y * width + x) (value x y)) ++
        (List.range width).map fun x => Store.mk (other + y * width + x) (otherValue x y)) := by
    intro y _
    rw [List.map_eq_flatMap (f := fun x => Store.mk (other + y * width + x) (otherValue x y))]
    exact (List.map_append_flatMap_perm _ _ _).symm
  exact (List.Perm.flatMap_left _ row).trans (List.flatMap_append_perm _ _ _).symm

/-! ## Loops over planes -/

variable {base other width height : Nat} {value otherValue : Nat → Nat → Value}
  {body : (x y : Nat) → Except failure (List (Store Value))}

/-- Row by row, a store for each position. -/
theorem loop_plane (each : ∀ x y, x < width → y < height →
      body x y = .ok [⟨base + y * width + x, value x y⟩]) :
    loop height (fun y => loop width fun x => body x y) =
      .ok (plane base width height value) := by
  have row : ∀ y, y < height → loop width (fun x => body x y) =
      .ok ((List.range width).map fun x => ⟨base + y * width + x, value x y⟩) := by
    intro y below
    rw [List.map_eq_flatMap]
    exact loop_eq fun x inside => each x y inside below
  exact loop_eq row

/-- Row by row, two stores for each position. -/
theorem loop_planes (each : ∀ x y, x < width → y < height →
      body x y = .ok [⟨base + y * width + x, value x y⟩,
        ⟨other + y * width + x, otherValue x y⟩]) :
    ∃ stores, loop height (fun y => loop width fun x => body x y) = .ok stores ∧
      stores.Perm (plane base width height value ++ plane other width height otherValue) := by
  refine ⟨_, loop_eq fun y below => loop_eq fun x inside => each x y inside below, ?_⟩
  exact interleaved_perm base other width height value otherValue

end Store

end Vela.Foundation
