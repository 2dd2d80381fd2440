import Mathlib.Data.BitVec
import Mathlib.Data.List.Range
import Mathlib.Data.List.Nodup
import Mathlib.Tactic.Ring
import Vela.Foundation.OrderedMap

/-! # Serial-number arithmetic

Counters that wrap at `2 ^ width`. Distances are measured forward around the
circle; `precedes` compares two numbers by the shorter way round, which is an
order only on sets that fit into half of the circle. -/

namespace Vela.Foundation.SerialNumber

variable {width : Nat}

/-- Steps from `source` up to `target`, wrapping at `2 ^ width`. -/
def forward (source target : BitVec width) : Nat := (target - source).toNat

/-- Half of the circle. -/
def half (width : Nat) : Nat := 2 ^ (width - 1)

def precedes (left right : BitVec width) : Bool :=
  decide (forward left right < half width) && left != right

/-! ## Distances -/

theorem forward_lt (source target : BitVec width) :
    forward source target < 2 ^ width := (target - source).isLt

@[simp] theorem forward_self (source : BitVec width) : forward source source = 0 := by
  simp [forward]

@[simp] theorem forward_eq_zero {source target : BitVec width} :
    forward source target = 0 ↔ source = target := by
  constructor
  · intro zero
    have difference : target - source = 0 :=
      BitVec.eq_of_toNat_eq (by simpa [forward] using zero)
    calc source = source + 0 := by simp
      _ = source + (target - source) := by rw [difference]
      _ = target := by ring
  · rintro rfl
    exact forward_self source

theorem forward_pos {source target : BitVec width} :
    0 < forward source target ↔ source ≠ target := by
  rw [Nat.pos_iff_ne_zero, ne_eq, forward_eq_zero]

/-- Distances add up along a path, except that a full turn is forgotten. -/
theorem forward_add (first second third : BitVec width) :
    forward first third = forward first second + forward second third ∨
      forward first third + 2 ^ width = forward first second + forward second third := by
  have split : third - first = (second - first) + (third - second) := by ring
  have bound := forward_lt first second
  have bound' := forward_lt second third
  unfold forward at *
  rw [split, BitVec.toNat_add]
  by_cases noTurn : (second - first).toNat + (third - second).toNat < 2 ^ width
  · exact .inl (Nat.mod_eq_of_lt noTurn)
  · right
    rw [Nat.mod_eq_sub_mod (by omega), Nat.mod_eq_of_lt (by omega)]
    omega

theorem forward_swap {left right : BitVec width} (different : left ≠ right) :
    forward left right + forward right left = 2 ^ width := by
  have positive := forward_pos.mpr different
  have bound := forward_lt left right
  rcases forward_add left right left with turn | turn <;>
    rw [forward_self] at turn <;> omega

theorem forward_add_ofNat (source : BitVec width) {steps : Nat} (small : steps < 2 ^ width) :
    forward source (source + BitVec.ofNat width steps) = steps := by
  have difference : source + BitVec.ofNat width steps - source = BitVec.ofNat width steps := by
    ring
  rw [forward, difference, BitVec.toNat_ofNat, Nat.mod_eq_of_lt small]

/-- Unbounded numbers less than a full turn apart keep their distance. -/
theorem forward_ofNat {earlier later : Nat} (inOrder : earlier ≤ later)
    (near : later < earlier + 2 ^ width) :
    forward (BitVec.ofNat width earlier) (BitVec.ofNat width later) = later - earlier := by
  have path : later = earlier + (later - earlier) := by omega
  have small : later - earlier < 2 ^ width := by omega
  rw [path, BitVec.ofNat_add, forward_add_ofNat _ small, ← path]

theorem add_forward (source target : BitVec width) :
    source + BitVec.ofNat width (forward source target) = target := by
  have roundTrip : BitVec.ofNat width (target - source).toNat = target - source := by
    rw [BitVec.ofNat_toNat, BitVec.setWidth_eq]
  rw [forward, roundTrip]
  ring

theorem forward_injective (source : BitVec width) :
    Function.Injective (forward source) := by
  intro left right equal
  rw [← add_forward source left, equal, add_forward]

theorem two_pow_eq (positive : 0 < width) : 2 ^ width = 2 * half width := by
  rw [half, ← Nat.pow_succ', Nat.succ_eq_add_one, Nat.sub_add_cancel positive]

/-! ## Comparison -/

theorem precedes_iff {left right : BitVec width} :
    precedes left right = true ↔
      0 < forward left right ∧ forward left right < half width := by
  rw [forward_pos]
  simp [precedes, and_comm]

theorem precedes_irrefl (number : BitVec width) : precedes number number = false := by
  simp [precedes]

theorem precedes_asymm (positive : 0 < width) {left right : BitVec width}
    (before : precedes left right = true) : precedes right left = false := by
  rw [precedes_iff] at before
  have turn := forward_swap (forward_pos.mp before.1)
  have circle := two_pow_eq positive
  rw [Bool.eq_false_iff, ne_eq, precedes_iff]
  omega

/-- Unbounded numbers less than half a turn apart are compared as they are. -/
theorem precedes_ofNat_iff (positive : 0 < width) {left right : Nat}
    (notFarBelow : right < left + half width) (notFarAbove : left < right + half width) :
    precedes (BitVec.ofNat width left) (BitVec.ofNat width right) = true ↔ left < right := by
  have circle := two_pow_eq positive
  rw [precedes_iff]
  by_cases inOrder : left ≤ right
  · rw [forward_ofNat inOrder (by omega)]
    omega
  · have turn := forward_ofNat (show right ≤ left by omega) (show left < right + 2 ^ width by omega)
    have different : BitVec.ofNat width right ≠ BitVec.ofNat width left := by
      rw [← forward_pos, turn]
      omega
    have around := forward_swap different
    omega

/-! ## Windows -/

/-- `number` lies in the half circle that starts at `base`. -/
def InHalf (base number : BitVec width) : Prop := forward base number < half width

instance (base number : BitVec width) : Decidable (InHalf base number) :=
  inferInstanceAs (Decidable (_ < _))

/-- Within one half circle the comparison is that of the distances from its
start. -/
theorem precedes_iff_of_inHalf (positive : 0 < width) {base left right : BitVec width}
    (leftIn : InHalf base left) (rightIn : InHalf base right) :
    precedes left right = true ↔ forward base left < forward base right := by
  unfold InHalf at leftIn rightIn
  have circle := two_pow_eq positive
  have bound := forward_lt left right
  rw [precedes_iff]
  rcases forward_add base left right with path | path <;> omega

/-- All of `numbers` lie in one half circle. -/
def FitHalf (numbers : List (BitVec width)) : Prop :=
  ∃ base, ∀ number ∈ numbers, InHalf base number

theorem fitHalf_singleton (number : BitVec width) : FitHalf [number] := by
  refine ⟨number, fun other member => ?_⟩
  rw [List.mem_singleton.mp member, InHalf, forward_self]
  exact Nat.two_pow_pos _

theorem FitHalf.subset {smaller larger : List (BitVec width)}
    (fits : FitHalf larger) (included : smaller ⊆ larger) : FitHalf smaller := by
  rcases fits with ⟨base, inside⟩
  exact ⟨base, fun number member => inside number (included member)⟩

theorem FitHalf.strictOrderOn (positive : 0 < width) {numbers : List (BitVec width)}
    (fits : FitHalf numbers) : StrictOrderOn precedes numbers := by
  rcases fits with ⟨base, inside⟩
  refine ⟨fun number _ => precedes_irrefl number, ?_, ?_⟩
  · intro left leftMem right rightMem different
    have apart : forward base left ≠ forward base right :=
      fun equal => different (forward_injective base equal)
    rw [precedes_iff_of_inHalf positive (inside left leftMem) (inside right rightMem),
      Bool.eq_false_iff, ne_eq,
      precedes_iff_of_inHalf positive (inside right rightMem) (inside left leftMem)]
    omega
  · intro first firstMem second secondMem third thirdMem before after
    rw [precedes_iff_of_inHalf positive (inside first firstMem) (inside second secondMem)]
      at before
    rw [precedes_iff_of_inHalf positive (inside second secondMem) (inside third thirdMem)]
      at after
    rw [precedes_iff_of_inHalf positive (inside first firstMem) (inside third thirdMem)]
    exact before.trans after

/-- The comparison orders a list exactly when the list fits into one half of
the circle. -/
theorem strictOrderOn_iff_fitHalf (positive : 0 < width)
    (numbers : List (BitVec width)) :
    StrictOrderOn precedes numbers ↔ FitHalf numbers := by
  constructor
  · intro ordered
    by_cases empty : numbers = []
    · exact ⟨0, by simp [empty]⟩
    · rcases ordered.exists_least empty with ⟨least, _, isLeast⟩
      refine ⟨least, fun number member => ?_⟩
      by_cases same : number = least
      · rw [same, InHalf, forward_self]
        exact Nat.two_pow_pos _
      · exact (precedes_iff.mp (isLeast number member same)).2
  · exact FitHalf.strictOrderOn positive

/-! ## Arcs -/

/-- `steps + 1` consecutive numbers from `first` on. -/
def arcFrom (first : BitVec width) : Nat → List (BitVec width)
  | 0 => [first]
  | steps + 1 => first :: arcFrom (first + 1) steps

/-- The wrap-around run `first, first + 1, …, last`. -/
def arc (first last : BitVec width) : List (BitVec width) :=
  arcFrom first (forward first last)

theorem arcFrom_length (first : BitVec width) (steps : Nat) :
    (arcFrom first steps).length = steps + 1 := by
  induction steps generalizing first with
  | zero => rfl
  | succ steps induction => simp [arcFrom, induction]

theorem arcFrom_eq_map (first : BitVec width) (steps : Nat) :
    arcFrom first steps =
      (List.range (steps + 1)).map fun offset => first + BitVec.ofNat width offset := by
  induction steps generalizing first with
  | zero => simp [arcFrom]
  | succ steps induction =>
      rw [arcFrom, induction, @List.range_succ_eq_map (steps + 1)]
      simp only [List.map_cons, List.map_map]
      congr 1
      · simp
      · apply List.map_congr_left
        intro offset _
        have step : BitVec.ofNat width (offset + 1) = 1 + BitVec.ofNat width offset := by
          rw [Nat.add_comm, BitVec.ofNat_add]
          rfl
        simp only [Function.comp_apply, Nat.succ_eq_add_one, step]
        ring

theorem arc_length (first last : BitVec width) :
    (arc first last).length = forward first last + 1 :=
  arcFrom_length first _

theorem mem_arc {first last number : BitVec width} :
    number ∈ arc first last ↔ forward first number ≤ forward first last := by
  have bound := forward_lt first last
  rw [arc, arcFrom_eq_map, List.mem_map]
  constructor
  · rintro ⟨offset, inRange, rfl⟩
    rw [List.mem_range] at inRange
    rw [forward_add_ofNat first (by omega)]
    omega
  · intro within
    exact ⟨forward first number, List.mem_range.mpr (by omega), add_forward first number⟩

theorem arc_nodup (first last : BitVec width) : (arc first last).Nodup := by
  have bound := forward_lt first last
  rw [arc, arcFrom_eq_map]
  refine List.Nodup.map_on ?_ List.nodup_range
  intro left leftMem right rightMem equal
  rw [List.mem_range] at leftMem rightMem
  have distances := congrArg (forward first) equal
  simpa only [forward_add_ofNat first (show left < 2 ^ width by omega),
    forward_add_ofNat first (show right < 2 ^ width by omega)] using distances

theorem forward_succ {first last : BitVec width} (different : first ≠ last) :
    forward first last = forward (first + 1) last + 1 := by
  have positive := forward_pos.mpr different
  have bound := forward_lt first last
  have rest := forward_lt (first + 1) last
  have oneStep : forward first (first + 1) = 1 :=
    forward_add_ofNat first (show 1 < 2 ^ width by omega)
  rcases forward_add first (first + 1) last with path | path <;> omega

/-- The half circle that starts right after a number. -/
theorem inHalf_succ_iff (positive : 0 < width) {last number : BitVec width} :
    InHalf (last + 1) number ↔ 0 < forward last number ∧ forward last number ≤ half width := by
  have circle := two_pow_eq positive
  have someHalf : 0 < half width := Nat.two_pow_pos _
  by_cases same : last = number
  · subst same
    have oneStep : forward last (last + 1) = 1 :=
      forward_add_ofNat last (show 1 < 2 ^ width by omega)
    have bound := forward_lt (last + 1) last
    have around := forward_add last (last + 1) last
    rw [oneStep, forward_self] at around
    rw [InHalf, forward_self]
    omega
  · have apart := forward_pos.mpr same
    have oneStep := forward_succ same
    rw [InHalf]
    omega

theorem first_mem_arc (first last : BitVec width) : first ∈ arc first last := by
  rw [mem_arc, forward_self]
  exact Nat.zero_le _

theorem last_mem_arc (first last : BitVec width) : last ∈ arc first last :=
  mem_arc.mpr (Nat.le_refl _)

/-! ## Growing an arc

An arc that spans at most half of the circle is extended by a number outside of
it on the one side where the comparison puts that number. -/

section Growing

variable {first last number : BitVec width}

theorem not_outside_of_mem_arc (positive : 0 < width) (span : forward first last ≤ half width)
    (inside : number ∈ arc first last) :
    precedes number first = false ∧ precedes last number = false := by
  have circle := two_pow_eq positive
  have path := forward_add first last number
  rw [mem_arc] at inside
  simp only [Bool.eq_false_iff, ne_eq, precedes_iff]
  constructor
  · intro before
    have turn := forward_swap (forward_pos.mp before.1)
    omega
  · omega

/-- Onto a number before the first one. -/
theorem arc_grows_back (positive : 0 < width) (outside : number ∉ arc first last)
    (before : precedes number first = true) (notAfter : precedes last number = false) :
    (∀ member ∈ arc first last, member ∈ arc number last) ∧ forward number last ≤ half width := by
  have circle := two_pow_eq positive
  rw [precedes_iff] at before
  rw [Bool.eq_false_iff, ne_eq, precedes_iff] at notAfter
  have turn := forward_swap (forward_pos.mp before.1)
  have path := forward_add first last number
  have wayBack := forward_add number first last
  have bound := forward_lt number last
  have boundAfter := forward_lt last number
  simp only [mem_arc] at outside ⊢
  constructor
  · intro member inside
    have toMember := forward_add number first member
    have bound' := forward_lt number member
    omega
  · omega

/-- Onto a number after the last one. -/
theorem arc_grows_forth (positive : 0 < width) (outside : number ∉ arc first last)
    (notBefore : precedes number first = false) :
    (∀ member ∈ arc first last, member ∈ arc first number) ∧ forward first number ≤ half width := by
  have circle := two_pow_eq positive
  rw [Bool.eq_false_iff, ne_eq, precedes_iff] at notBefore
  simp only [mem_arc] at outside ⊢
  have different : first ≠ number := by
    intro same
    rw [same, forward_self] at outside
    omega
  have turn := forward_swap different
  have bound := forward_lt first number
  constructor
  · intro member inside
    omega
  · omega

theorem forward_of_le {base : BitVec width} (le : forward base first ≤ forward base last) :
    forward base first + forward first last = forward base last := by
  have bound := forward_lt first last
  have path := forward_add base first last
  omega

/-- An arc of at most half of the circle runs forward in a half circle that its
first number lies in. -/
theorem le_of_span (positive : 0 < width) {base : BitVec width} (firstIn : InHalf base first)
    (span : forward first last ≤ half width) : forward base first ≤ forward base last := by
  have circle := two_pow_eq positive
  have path := forward_add base first last
  unfold InHalf at firstIn
  omega

/-- Within one half circle an arc is always extended on one side. -/
theorem inHalf_grows (positive : 0 < width) {base : BitVec width} (firstIn : InHalf base first)
    (lastIn : InHalf base last) (numberIn : InHalf base number)
    (span : forward first last ≤ half width) :
    number ∈ arc first last ∨ precedes number first ≠ precedes last number := by
  have inOrder := le_of_span positive firstIn span
  by_cases inside : forward base first ≤ forward base number ∧
      forward base number ≤ forward base last
  · left
    have toNumber := forward_of_le inside.1
    have toLast := forward_of_le inOrder
    rw [mem_arc]
    omega
  · right
    intro same
    rw [Bool.eq_iff_iff, precedes_iff_of_inHalf positive numberIn firstIn,
      precedes_iff_of_inHalf positive lastIn numberIn] at same
    omega

end Growing

end Vela.Foundation.SerialNumber
