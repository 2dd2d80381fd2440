import Mathlib.Data.List.Basic

/-! # JSON values

Parsed documents over an arbitrary type of numbers. Members of an object are
read by key; the first of a key counts, and writing a key replaces every
earlier member of it. -/

namespace Vela.Foundation

inductive Json (Number : Type u) : Type u where
  | null
  | boolean (value : Bool)
  | number (value : Number)
  | string (value : String)
  | array (elements : List (Json Number))
  | object (members : List (String × Json Number))

namespace Json

variable {Number : Type u} {Value : Type v}

abbrev Members (Number : Type u) := List (String × Json Number)

/-- `object[key] = value` -/
def setMember (members : Members Number) (key : String) (value : Json Number) : Members Number :=
  (key, value) :: members.filter fun member => member.1 ≠ key

variable {members : Members Number} {key other : String} {value : Json Number}

@[simp] theorem lookup_setMember :
    (setMember members key value).lookup other =
      if other = key then some value else members.lookup other := by
  rw [setMember, List.lookup_cons]
  by_cases same : other = key
  · simp [same]
  · have kept : (members.filter fun member => member.1 ≠ key).lookup other =
        members.lookup other := by
      induction members with
      | nil => rfl
      | cons member rest induction =>
          rcases member with ⟨first, field⟩
          by_cases replaced : first = key
          · have passed : (other == first) = false := by
              rw [replaced]
              exact beq_false_of_ne same
            rw [List.filter_cons_of_neg (by simpa using replaced), induction,
              List.lookup_cons, passed]
          · rw [List.filter_cons_of_pos (by simpa using replaced), List.lookup_cons,
              List.lookup_cons, induction]
    rw [kept, if_neg same, beq_false_of_ne same]

end Json

end Vela.Foundation
