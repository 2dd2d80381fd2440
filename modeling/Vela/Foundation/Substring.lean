import Mathlib.Data.List.Infix

/-! # First occurrences

Searching a list for a pattern, and patterns that cannot overlap with themselves. -/

namespace Vela.Foundation.Substring

variable {Element : Type u} {pattern text : List Element}

/-- Where the pattern occurs first. -/
def find [DecidableEq Element] (pattern : List Element) : (text : List Element) → Option Nat
  | [] => if pattern <+: [] then some 0 else none
  | element :: rest =>
      if pattern <+: element :: rest then some 0 else (find pattern rest).map Nat.succ

theorem find_eq_none_iff [DecidableEq Element] : find pattern text = none ↔ ¬pattern <:+: text := by
  induction text with
  | nil => simp [find]
  | cons element rest induction =>
      rw [find, List.infix_cons_iff]
      split
      · rename_i here
        simp [here]
      · rename_i notHere
        simp [notHere, induction]

/-- What is found is an occurrence. -/
theorem find_occurs [DecidableEq Element] {position : Nat}
    (found : find pattern text = some position) :
    text.take position ++ (pattern ++ text.drop (position + pattern.length)) = text := by
  induction text generalizing position with
  | nil =>
      rw [find] at found
      split at found
      · rename_i empty
        cases found
        simp [List.prefix_nil.mp empty]
      · cases found
  | cons element rest induction =>
      rw [find] at found
      split at found
      · rename_i here
        cases found
        rcases here with ⟨after, same⟩
        simp [← same]
      · rcases Option.map_eq_some_iff.mp found with ⟨earlier, foundLater, rfl⟩
        rw [Nat.succ_add, List.take_succ_cons, List.drop_succ_cons, List.cons_append,
          induction foundLater]

/-! ## Patterns without a border -/

/-- No proper part of the pattern is both its beginning and its end. -/
def Borderless (pattern : List Element) : Prop :=
  ∀ border, border ≠ [] → border <+: pattern → border <:+ pattern → border = pattern

/-- An element that occurs at the beginning only leaves no room for a border. -/
theorem borderless_cons {first : Element} {later : List Element} (once : first ∉ later) :
    Borderless (first :: later) := by
  intro border nonempty isPrefix isSuffix
  rcases List.suffix_cons_iff.mp isSuffix with whole | within
  · exact whole
  · cases border with
    | nil => exact absurd rfl nonempty
    | cons front rest =>
        have same : front = first := (List.cons_prefix_cons.mp isPrefix).1
        have inside : front ∈ later := within.subset List.mem_cons_self
        rw [same] at inside
        exact absurd inside once

/-- A pattern that begins inside of a text without it does not end there either. -/
theorem Borderless.not_prefix_append (borderless : Borderless pattern) (nonempty : text ≠ [])
    (absent : ¬pattern <:+: text) (rest : List Element) :
    ¬pattern <+: text ++ (pattern ++ rest) := by
  intro begins
  rcases List.prefix_or_prefix_of_prefix begins (List.prefix_append text _) with inside | longer
  · exact absent inside.isInfix
  · rcases longer with ⟨overlap, whole⟩
    have overlapBegins : overlap <+: pattern ++ rest := by
      rw [← List.prefix_append_right_inj text, whole]
      exact begins
    have overlapShort : overlap.length ≤ pattern.length := by
      rw [← whole, List.length_append]
      exact Nat.le_add_left _ _
    have isPrefix : overlap <+: pattern :=
      List.prefix_of_prefix_length_le overlapBegins (List.prefix_append pattern rest) overlapShort
    have isSuffix : overlap <:+ pattern := ⟨text, whole⟩
    by_cases empty : overlap = []
    · rw [empty, List.append_nil] at whole
      exact absent (whole ▸ List.infix_refl text)
    · have same := borderless overlap empty isPrefix isSuffix
      rw [same] at whole
      exact nonempty (List.append_left_eq_self.mp whole)

/-- Behind a text without it, such a pattern is found where it was put. -/
theorem Borderless.find_append [DecidableEq Element] (borderless : Borderless pattern)
    (absent : ¬pattern <:+: text) (rest : List Element) :
    find pattern (text ++ (pattern ++ rest)) = some text.length := by
  induction text with
  | nil =>
      cases whole : pattern ++ rest with
      | nil =>
          have empty : pattern = [] := (List.append_eq_nil_iff.mp whole).1
          simp [find, empty]
      | cons element later =>
          have here : pattern <+: element :: later := whole ▸ List.prefix_append pattern rest
          simp only [List.nil_append, find, if_pos here, List.length_nil]
  | cons element later induction =>
      have absentLater : ¬pattern <:+: later := by
        intro inside
        exact absent (List.infix_cons inside)
      have notHere := borderless.not_prefix_append (List.cons_ne_nil element later) absent rest
      rw [List.cons_append] at notHere ⊢
      rw [find, if_neg notHere, induction absentLater]
      rfl

end Vela.Foundation.Substring
