import Mathlib.Data.List.Basic

/-! # Streams in segments

A reader of a stream gets what has arrived, one segment at a time, and asks again
until it has as much as it wants. What it reads does not depend on the segments. -/

namespace Vela.Foundation

/-- What one receive can return: never nothing. -/
abbrev Segment (α : Type u) := { items : List α // items ≠ [] }

namespace Segment

variable {α : Type u}

/-- The stream that segments make up. -/
def join (segments : List (Segment α)) : List α := segments.flatMap Subtype.val

@[simp] theorem join_nil : join ([] : List (Segment α)) = [] := rfl

@[simp] theorem join_cons (segment : Segment α) (rest : List (Segment α)) :
    join (segment :: rest) = segment.val ++ join rest := rfl

/-- Receives until `n` items are there, and leaves the rest of the last segment. -/
def receive : Nat → List (Segment α) → Option (List α × List (Segment α))
  | 0, segments => some ([], segments)
  | _ + 1, [] => none
  | n + 1, segment :: rest =>
      if more : n + 1 < segment.val.length then
        some (segment.val.take (n + 1),
          ⟨segment.val.drop (n + 1), by simpa using more⟩ :: rest)
      else do
        let (items, left) ← receive (n + 1 - segment.val.length) rest
        return (segment.val ++ items, left)

/-- It gets the first items of the stream, if there are enough. -/
theorem receive_eq (n : Nat) (segments : List (Segment α)) :
    (receive n segments).map (fun (items, left) => (items, join left)) =
      if n ≤ (join segments).length then some ((join segments).take n, (join segments).drop n)
      else none := by
  induction segments generalizing n with
  | nil => cases n <;> rfl
  | cons segment rest induction =>
      cases n with
      | zero => simp [receive]
      | succ n =>
          rw [receive, join_cons, List.length_append]
          split
          · rename_i more
            rw [if_pos (by omega), List.take_append_of_le_length (Nat.le_of_lt more),
              List.drop_append_of_le_length (Nat.le_of_lt more)]
            rfl
          · rename_i notMore
            have whole : segment.val.length ≤ n + 1 := Nat.le_of_not_lt notMore
            have later := induction (n + 1 - segment.val.length)
            rw [List.take_append, List.drop_append, List.take_of_length_le whole,
              List.drop_eq_nil_of_le whole, List.nil_append]
            cases received : receive (n + 1 - segment.val.length) rest with
            | none =>
                rw [received] at later
                split at later
                · cases later
                · rw [if_neg (by omega)]
                  rfl
            | some result =>
                rw [received] at later
                split at later
                · rw [if_pos (by omega)]
                  simp only [Option.map_some, Option.some.injEq, Prod.mk.injEq] at later ⊢
                  simp [later.1, later.2]
                · cases later

theorem length_receive {n : Nat} {segments left : List (Segment α)} {items : List α}
    (received : receive n segments = some (items, left)) : items.length = n := by
  have got := receive_eq n segments
  rw [received] at got
  split at got
  · simp only [Option.map_some, Option.some.injEq, Prod.mk.injEq] at got
    rw [got.1, List.length_take]
    omega
  · cases got

end Segment

end Vela.Foundation
