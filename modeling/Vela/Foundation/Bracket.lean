import Mathlib.Data.List.Basic
import Mathlib.Data.List.Infix

/-! # Bracketed sessions

A source of notices runs one session after the other: a session opens, carries
items and closes, and each session has an owner of its own. A phase says where a
word of notices leaves off; a word that can be followed from the first phase is
a beginning of whole sessions. -/

namespace Vela.Foundation.Bracket

inductive Notice (Item : Type u) where
  | opened (owner : Nat)
  | item (owner : Nat) (content : Item)
  | closed (owner : Nat)

/-- One owner's session, from its opening to its close. -/
structure Session (Item : Type u) where
  owner : Nat
  items : List Item

variable {Item : Type u}

def Session.notices (session : Session Item) : List (Notice Item) :=
  .opened session.owner :: (session.items.map (.item session.owner) ++ [.closed session.owner])

/-- Where a word leaves off: the session that is open, and a bound that the
owners of later sessions keep. -/
structure Phase where
  floor : Nat
  current : Option Nat

namespace Phase

def start : Phase := ⟨0, none⟩

def advance (phase : Phase) : Notice Item → Option Phase
  | .opened owner =>
      if phase.current = none ∧ phase.floor ≤ owner then some ⟨owner + 1, some owner⟩ else none
  | .item owner _ => if phase.current = some owner then some phase else none
  | .closed owner => if phase.current = some owner then some ⟨phase.floor, none⟩ else none

def follow (phase : Phase) : List (Notice Item) → Option Phase
  | [] => some phase
  | notice :: rest => (phase.advance notice).bind fun after => after.follow rest

theorem follow_append (phase : Phase) (first second : List (Notice Item)) :
    phase.follow (first ++ second) =
      (phase.follow first).bind fun between => between.follow second := by
  induction first generalizing phase with
  | nil => rfl
  | cons notice rest induction =>
      simp only [List.cons_append, follow, Option.bind_assoc]
      apply congrArg
      funext after
      exact induction after

theorem follow_append_eq_some {phase after : Phase} {first second : List (Notice Item)} :
    phase.follow (first ++ second) = some after ↔
      ∃ between, phase.follow first = some between ∧ between.follow second = some after := by
  rw [follow_append, Option.bind_eq_some_iff]

/-- Items of the session that is open. -/
theorem follow_items {phase : Phase} {owner : Nat} (opened : phase.current = some owner)
    (items : List Item) : phase.follow (items.map (.item owner)) = some phase := by
  induction items with
  | nil => rfl
  | cons item rest induction =>
      rw [List.map_cons, follow, advance, if_pos opened]
      exact induction

/-- What can still come after a phase: the rest of the open session, and later
sessions. -/
theorem exists_sessions {phase after : Phase} {word : List (Notice Item)}
    (bounded : ∀ owner, phase.current = some owner → owner < phase.floor)
    (followed : phase.follow word = some after) :
    ∃ (pending : List Item) (sessions : List (Session Item)),
      (sessions.map Session.owner).Pairwise (· < ·) ∧
      (∀ session ∈ sessions, phase.floor ≤ session.owner) ∧
      word <+: (match phase.current with
        | none => []
        | some owner => pending.map (.item owner) ++ [.closed owner]) ++
          sessions.flatMap Session.notices := by
  induction word generalizing phase with
  | nil => exact ⟨[], [], List.Pairwise.nil, by simp, List.nil_prefix⟩
  | cons notice rest induction =>
      rw [follow, Option.bind_eq_some_iff] at followed
      rcases followed with ⟨next, advanced, followed⟩
      cases notice with
      | opened owner =>
          simp only [advance] at advanced
          split at advanced
          · rename_i idle
            cases advanced
            rcases induction (by simp) followed with ⟨items, sessions, apart, above, isPrefix⟩
            refine ⟨[], ⟨owner, items⟩ :: sessions, ?_, ?_, ?_⟩
            · rw [List.map_cons]
              apply List.pairwise_cons.mpr
              refine ⟨fun other member => ?_, apart⟩
              rcases List.mem_map.mp member with ⟨session, later, rfl⟩
              exact above session later
            · intro session member
              rcases List.mem_cons.mp member with same | later
              · rw [same]
                exact idle.2
              · have bound := above session later
                dsimp only at bound
                omega
            · simpa [idle.1, Session.notices] using isPrefix
          · cases advanced
      | item owner content =>
          simp only [advance] at advanced
          split at advanced
          · rename_i opened
            cases advanced
            rcases induction bounded followed with ⟨items, sessions, apart, above, isPrefix⟩
            refine ⟨content :: items, sessions, apart, above, ?_⟩
            simpa [opened] using isPrefix
          · cases advanced
      | closed owner =>
          simp only [advance] at advanced
          split at advanced
          · rename_i opened
            cases advanced
            rcases induction (by simp) followed with ⟨_, sessions, apart, above, isPrefix⟩
            refine ⟨[], sessions, apart, above, ?_⟩
            simpa [opened] using isPrefix
          · cases advanced

end Phase

/-- A beginning of whole sessions, one after the other, no two of one owner. -/
def WellBracketed (word : List (Notice Item)) : Prop :=
  ∃ sessions : List (Session Item), (sessions.map Session.owner).Pairwise (· < ·) ∧
    word <+: sessions.flatMap Session.notices

theorem wellBracketed_of_follow {word : List (Notice Item)} {after : Phase}
    (followed : Phase.start.follow word = some after) : WellBracketed word := by
  have unopened : ∀ owner, Phase.start.current = some owner → owner < Phase.start.floor := by
    intro owner opened
    cases opened
  rcases Phase.exists_sessions unopened followed with ⟨_, sessions, apart, _, isPrefix⟩
  exact ⟨sessions, apart, by simpa [Phase.start] using isPrefix⟩

end Vela.Foundation.Bracket
