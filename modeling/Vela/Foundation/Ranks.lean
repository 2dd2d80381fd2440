import Mathlib.Data.List.Count
import Mathlib.Data.Nat.Find
import Mathlib.Order.Lattice

/-! # Ranks in a keyed list

How many elements have a key up to some number, and the first number at which a
growing count reaches a rank. -/

namespace Vela.Foundation.Ranks

/-! ## Counting by key -/

section Counts

variable {Element : Type u} (key : Element → Nat) (elements : List Element)

def countAt (index : Nat) : Nat := elements.countP fun element => key element = index

def countBelow (index : Nat) : Nat := elements.countP fun element => key element < index

def countUpTo (index : Nat) : Nat := elements.countP fun element => key element ≤ index

@[simp] theorem countBelow_zero : countBelow key elements 0 = 0 := by
  simp [countBelow]

theorem countUpTo_eq (index : Nat) :
    countUpTo key elements index = countBelow key elements (index + 1) := by
  simp only [countUpTo, countBelow, Nat.lt_succ_iff]

theorem countBelow_succ (index : Nat) :
    countBelow key elements (index + 1) =
      countBelow key elements index + countAt key elements index := by
  unfold countBelow countAt
  induction elements with
  | nil => rfl
  | cons element rest induction =>
      simp only [List.countP_cons, induction, decide_eq_true_eq]
      split_ifs <;> omega

theorem countAt_snoc (element : Element) (index : Nat) :
    countAt key (elements ++ [element]) index =
      if key element = index then countAt key elements index + 1
      else countAt key elements index := by
  simp only [countAt, List.countP_append, List.countP_singleton, decide_eq_true_eq]
  split_ifs <;> rfl

theorem countUpTo_mono : Monotone (countUpTo key elements) := by
  intro low high inOrder
  apply List.countP_mono_left
  intro element _ within
  rw [decide_eq_true_eq] at within ⊢
  exact Nat.le_trans within inOrder

theorem countUpTo_eq_length {last : Nat} (bounded : ∀ element ∈ elements, key element ≤ last) :
    countUpTo key elements last = elements.length := by
  rw [countUpTo, List.countP_eq_length]
  intro element member
  exact decide_eq_true (bounded element member)

end Counts

/-! ## Reaching a rank -/

section Reaching

variable {Rank : Type u} [LinearOrder Rank] {count : Nat → Rank} {rank higher : Rank}
  {index later : Nat}

/-- At `index` the count reaches `rank` for the first time. -/
def IsFirst (count : Nat → Rank) (rank : Rank) (index : Nat) : Prop :=
  rank ≤ count index ∧ ∀ earlier < index, count earlier < rank

theorem exists_isFirst {last : Nat} (reached : rank ≤ count last) :
    ∃ index ≤ last, IsFirst count rank index := by
  have reaches : ∃ index, rank ≤ count index := ⟨last, reached⟩
  refine ⟨Nat.find reaches, Nat.find_min' reaches reached, Nat.find_spec reaches, ?_⟩
  intro earlier before
  exact not_le.mp (Nat.find_min reaches before)

/-- A higher rank is not reached sooner. -/
theorem IsFirst.mono (isFirst : IsFirst count rank index) (isLater : IsFirst count higher later)
    (inOrder : rank ≤ higher) : index ≤ later := by
  by_contra sooner
  have missed := isFirst.2 later (Nat.lt_of_not_le sooner)
  exact not_le.mpr missed (inOrder.trans isLater.1)

theorem IsFirst.unique (isFirst : IsFirst count rank index) (other : IsFirst count rank later) :
    index = later :=
  Nat.le_antisymm (isFirst.mono other (le_refl rank)) (other.mono isFirst (le_refl rank))

end Reaching

end Vela.Foundation.Ranks
