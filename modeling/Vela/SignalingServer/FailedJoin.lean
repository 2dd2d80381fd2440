import Vela.SignalingServer.Registry

/-! # Joins that fail

A join first takes the connection out of the room it is in and looks at the
capacity of the new room after that. A refusal for want of capacity leaves the
connection in no room. -/

namespace Vela.RoomManager

open Foundation UnorderedMap

variable {manager : RoomManager} {roomName : String} {conn : ConnectionHandle}

/-- If the join returns an error, then nothing has changed and nothing was sent. -/
def FailsCleanly (manager : RoomManager) (roomName : String) (conn : ConnectionHandle) : Prop :=
  ∀ error, (manager.join roomName conn).2.2 = .error error →
    SameRegistry manager (manager.join roomName conn).1 ∧ (manager.join roomName conn).2.1 = []

/-- The arguments are refused at once, there is no room to leave, or there is a
place in the room to join. -/
def NothingToUndo (manager : RoomManager) (roomName : String) (conn : ConnectionHandle) : Prop :=
  roomName = "" ∨ conn = 0 ∨ manager.connRoom.lookup conn = none ∨
    (others conn (manager.roster roomName)).length < kMaxParticipants

/-- In a consistent registry the rosters determine the rooms. -/
theorem Consistent.lookup_eq (consistent : Consistent manager) (name : String) :
    manager.rooms.lookup name =
      if (manager.roster name).isEmpty then none else some ⟨name, manager.roster name⟩ := by
  cases found : manager.rooms.lookup name with
  | none =>
      rw [roster_of_missing found]
      rfl
  | some room =>
      rcases consistent.registered name room found with ⟨sameName, someone, _⟩
      have occupied : room.participants.isEmpty = false :=
        List.isEmpty_eq_false_iff.mpr (List.ne_nil_of_length_pos someone)
      rw [roster_of_lookup found, occupied, if_neg Bool.false_ne_true, ← sameName]

theorem Consistent.roster_length (consistent : Consistent manager) (name : String) :
    (manager.roster name).length ≤ kMaxParticipants := by
  cases found : manager.rooms.lookup name with
  | none =>
      rw [roster_of_missing found]
      exact Nat.zero_le _
  | some room =>
      rw [roster_of_lookup found]
      exact (consistent.registered name room found).2.2

/-- Leaving changes nothing for a connection that is in no room. -/
theorem Left.sameRegistry {vacated : RoomManager} {left : List Sent}
    (leaves : Left manager conn vacated left) (consistent : Consistent manager)
    (unbound : manager.connRoom.lookup conn = none) : SameRegistry manager vacated := by
  have sameRoster : ∀ name, vacated.roster name = manager.roster name := by
    intro name
    rw [leaves.roster]
    apply others_of_not_mem
    intro listed
    rw [(consistent.bound conn name).mpr listed] at unbound
    cases unbound
  refine ⟨leaves.nextId, fun name => ?_, fun other => ?_⟩
  · rw [leaves.consistent.lookup_eq, consistent.lookup_eq, sameRoster]
  · rw [leaves.connRoom]
    split
    · rename_i here
      rw [here, unbound]
    · rfl

theorem failsCleanly_iff (consistent : Consistent manager) (roomName : String)
    (conn : ConnectionHandle) :
    FailsCleanly manager roomName conn ↔ NothingToUndo manager roomName conn := by
  cases joinOutcome consistent roomName conn with
  | invalid arguments result =>
      constructor
      · intro _
        rcases arguments with unnamed | null
        · exact .inl unnamed
        · exact .inr (.inl null)
      · intro _ error _
        rw [result]
        exact ⟨⟨rfl, fun _ => rfl, fun _ => rfl⟩, rfl⟩
  | full vacated after left leaves tooMany same result =>
      rw [leaves.roster] at tooMany
      constructor
      · intro clean
        right; right; left
        have unchanged := (clean .resourceExhausted (by rw [result])).1.connRoom conn
        rw [result, same.connRoom, leaves.connRoom, if_pos rfl] at unchanged
        exact unchanged.symm
      · intro nothing error _
        rw [result]
        rcases nothing with unnamed | null | unbound | place
        · rw [join, if_pos (.inl (by simp [unnamed]))] at result
          cases result
        · rw [join, if_pos (.inr null)] at result
          cases result
        · have before := leaves.sameRegistry consistent unbound
          refine ⟨⟨?_, fun name => ?_, fun other => ?_⟩, leaves.unbound unbound⟩
          · rw [same.nextId, before.nextId]
          · rw [same.rooms, before.rooms]
          · rw [same.connRoom, before.connRoom]
        · omega
  | success vacated after left leaves joins result =>
      constructor
      · intro _
        right; right; right
        have limit := joins.consistent.roster_length roomName
        rw [joins.roster, if_pos rfl, leaves.roster, List.length_append,
          List.length_singleton] at limit
        exact limit
      · intro _ error failed
        rw [result] at failed
        cases failed

/-- In every reachable registry a join that fails changes nothing and tells
nobody, exactly if its arguments are refused at once, its connection is in no
room, or it does not fail for want of capacity. -/
theorem failed_join_clean_iff (calls : List Call) (roomName : String) (conn : ConnectionHandle) :
    FailsCleanly (machine.run calls) roomName conn ↔
      NothingToUndo (machine.run calls) roomName conn :=
  failsCleanly_iff (consistent_run calls) roomName conn

/-- The only member of one room asks for a full one, and is then in neither. -/
theorem failed_join_evicts :
    ¬ ∀ (calls : List Call) (roomName : String) (conn : ConnectionHandle),
      FailsCleanly (machine.run calls) roomName conn := by
  intro always
  have clean := always ([1, 2, 3, 4, 5, 6, 7, 8].map (Call.join "full") ++ [.join "own" 9]) "full" 9
    .resourceExhausted (by decide)
  have unchanged := clean.1.connRoom 9
  revert unchanged
  decide

end Vela.RoomManager
