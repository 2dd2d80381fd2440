import Vela.SignalingServer.RoomManager

/-! # The registry invariant

Rooms list their participants and a second map leads from a connection to its
room. Every path that changes one changes the other. What each call does is said
once, in terms of the roster of every room. -/

namespace Vela

open Foundation UnorderedMap

namespace RoomManager

/-! ## Rosters -/

def roster (manager : RoomManager) (name : String) : List Participant :=
  ((manager.rooms.lookup name).map Room.participants).getD []

def others (conn : ConnectionHandle) (participants : List Participant) : List Participant :=
  participants.filter fun p => p.conn ≠ conn

/-- The two maps agree, and rooms are within their limits. -/
structure Consistent (manager : RoomManager) : Prop where
  registered : ∀ name room, manager.rooms.lookup name = some room →
    room.name = name ∧ 1 ≤ room.participants.length ∧
      room.participants.length ≤ kMaxParticipants
  once : ∀ name, ((manager.roster name).map Participant.conn).Nodup
  bound : ∀ conn name, manager.connRoom.lookup conn = some name ↔
    conn ∈ (manager.roster name).map Participant.conn

variable {manager : RoomManager} {conn other : ConnectionHandle} {name : String}

theorem mem_others {p : Participant} {participants : List Participant} :
    p ∈ others conn participants ↔ p ∈ participants ∧ p.conn ≠ conn := by
  simp [others]

theorem others_sublist (participants : List Participant) :
    (others conn participants).Sublist participants :=
  List.filter_sublist

/-- Nobody is left out when the connection is not listed. -/
theorem others_of_not_mem {participants : List Participant}
    (absent : conn ∉ participants.map Participant.conn) :
    others conn participants = participants := by
  apply List.filter_eq_self.mpr
  intro p member
  simp only [ne_eq, decide_eq_true_eq]
  intro same
  exact absent (List.mem_map.mpr ⟨p, member, same⟩)

/-- Erasing the first entry of a connection leaves the others, as it is listed
once. -/
theorem eraseP_eq_others {participants : List Participant}
    (once : (participants.map Participant.conn).Nodup) :
    participants.eraseP (fun p => p.conn = conn) = others conn participants := by
  induction participants with
  | nil => rfl
  | cons p rest induction =>
      rw [List.map_cons, List.nodup_cons] at once
      by_cases here : p.conn = conn
      · have rest_same : others conn rest = rest :=
          others_of_not_mem (here ▸ once.1)
        rw [List.eraseP_cons_of_pos (by simpa using here), others,
          List.filter_cons_of_neg (by simpa using here)]
        exact rest_same.symm
      · rw [List.eraseP_cons_of_neg (by simpa using here), others,
          List.filter_cons_of_pos (by simpa using here), induction once.2]
        rfl

theorem roster_of_lookup {room : Room} (found : manager.rooms.lookup name = some room) :
    manager.roster name = room.participants := by
  rw [roster, found]
  rfl

theorem roster_of_missing (missing : manager.rooms.lookup name = none) :
    manager.roster name = [] := by
  rw [roster, missing]
  rfl

theorem lookup_of_mem_roster {p : Participant} (member : p ∈ manager.roster name) :
    ∃ room, manager.rooms.lookup name = some room ∧ room.participants = manager.roster name := by
  cases found : manager.rooms.lookup name with
  | none =>
      rw [roster_of_missing found] at member
      cases member
  | some room => exact ⟨room, rfl, (roster_of_lookup found).symm⟩

theorem lookup_pruned {rooms : UnorderedMap String Room} {roomName : String} {room : Room} :
    (pruned rooms roomName room).lookup name =
      if name = roomName then (if room.participants.isEmpty then none else some room)
      else rooms.lookup name := by
  rw [pruned]
  split
  · rw [lookup_erase_eq]
  · rw [lookup_insert_eq]

/-! ## Calls -/

/-- The same registry, read through its maps. -/
structure SameRegistry (before after : RoomManager) : Prop where
  nextId : after.nextId = before.nextId
  rooms : ∀ name, after.rooms.lookup name = before.rooms.lookup name
  connRoom : ∀ conn, after.connRoom.lookup conn = before.connRoom.lookup conn

theorem SameRegistry.roster {before after : RoomManager} (same : SameRegistry before after)
    (name : String) : after.roster name = before.roster name := by
  rw [RoomManager.roster, RoomManager.roster, same.rooms]

theorem SameRegistry.consistent {before after : RoomManager} (same : SameRegistry before after)
    (consistent : Consistent before) : Consistent after where
  registered := fun name room found => consistent.registered name room (same.rooms name ▸ found)
  once := fun name => same.roster name ▸ consistent.once name
  bound := fun conn name => by
    rw [same.connRoom, same.roster]
    exact consistent.bound conn name

theorem Consistent.create : Consistent RoomManager.create where
  registered := fun _ _ found => nomatch found
  once := fun _ => List.nodup_nil
  bound := fun _ _ => Iff.intro (fun found => nomatch found) (fun member => nomatch member)

/-- What leaving does: the connection is taken off every roster, and those that
remain in its room are told. -/
structure Left (before : RoomManager) (conn : ConnectionHandle) (after : RoomManager)
    (sent : List Sent) : Prop where
  nextId : after.nextId = before.nextId
  roster : ∀ name, after.roster name = others conn (before.roster name)
  connRoom : ∀ other, after.connRoom.lookup other =
    if other = conn then none else before.connRoom.lookup other
  unbound : before.connRoom.lookup conn = none → sent = []
  bound : ∀ name p, p ∈ before.roster name → p.conn = conn →
    sent = if p.id ≠ 0 then (others conn (before.roster name)).map fun q =>
      { conn := q.conn, frame := .peerLeft name p.id } else []
  consistent : Consistent after

theorem find?_entry {participants : List Participant} {p : Participant}
    (once : (participants.map Participant.conn).Nodup) (member : p ∈ participants) :
    participants.find? (fun q => q.conn = p.conn) = some p := by
  induction participants with
  | nil => cases member
  | cons first rest induction =>
      rw [List.map_cons, List.nodup_cons] at once
      rcases List.mem_cons.mp member with same | later
      · rw [← same]
        exact List.find?_cons_of_pos (by simp)
      · have different : first.conn ≠ p.conn := by
          intro same
          exact once.1 (List.mem_map.mpr ⟨p, later, same.symm⟩)
        rw [List.find?_cons_of_neg (by simpa using different)]
        exact induction once.2 later

/-- A registry without one connection, its old room pruned, is consistent. -/
theorem consistent_without (consistent : Consistent manager) {after : RoomManager}
    {conn : ConnectionHandle} {roomName : String} {room : Room}
    (found : manager.rooms.lookup roomName = some room)
    (rooms : after.rooms = pruned manager.rooms roomName
      { room with participants := others conn room.participants })
    (roster : ∀ name, after.roster name = others conn (manager.roster name))
    (connRoom : ∀ other, after.connRoom.lookup other =
      if other = conn then none else manager.connRoom.lookup other) : Consistent after := by
  refine ⟨fun name kept isFound => ?_, fun name => ?_, fun other name => ?_⟩
  · rw [rooms, lookup_pruned] at isFound
    split at isFound
    · rename_i here
      split at isFound
      · cases isFound
      · rename_i occupied
        cases isFound
        rcases consistent.registered roomName room found with ⟨named, _, limit⟩
        refine ⟨named.trans here.symm, ?_, ?_⟩
        · rw [List.isEmpty_iff_length_eq_zero] at occupied
          exact Nat.one_le_iff_ne_zero.mpr occupied
        · exact (others_sublist room.participants).length_le.trans limit
    · exact consistent.registered name kept isFound
  · rw [roster]
    exact (consistent.once name).sublist ((others_sublist _).map _)
  · rw [connRoom, roster, List.mem_map]
    constructor
    · intro isBound
      split at isBound
      · cases isBound
      · rename_i different
        rcases List.mem_map.mp ((consistent.bound other name).mp isBound) with ⟨p, member, same⟩
        exact ⟨p, mem_others.mpr ⟨member, same ▸ different⟩, same⟩
    · intro member
      rcases member with ⟨p, isOther, same⟩
      rcases mem_others.mp isOther with ⟨inRoster, different⟩
      rw [if_neg (same ▸ different)]
      exact (consistent.bound other name).mpr (List.mem_map.mpr ⟨p, inRoster, same⟩)

theorem leave_unbound (unbound : manager.connRoom.lookup conn = none) :
    manager.leave conn = (manager, []) := by
  rw [leave, unbound]

theorem others_of_elsewhere (consistent : Consistent manager)
    (elsewhere : manager.connRoom.lookup conn ≠ some name) :
    others conn (manager.roster name) = manager.roster name :=
  others_of_not_mem fun member => elsewhere ((consistent.bound conn name).mpr member)

theorem left_unbound (consistent : Consistent manager)
    (unbound : manager.connRoom.lookup conn = none) : Left manager conn manager [] where
  nextId := rfl
  roster := fun name => (others_of_elsewhere consistent (by simp [unbound])).symm
  connRoom := by
    intro other
    split
    · rename_i here
      rw [here, unbound]
    · rfl
  unbound := fun _ => rfl
  bound := by
    intro name p member same
    have found := (consistent.bound conn name).mpr (List.mem_map.mpr ⟨p, member, same⟩)
    rw [unbound] at found
    cases found
  consistent := consistent

section LeaveBound

variable {entry : Participant} {roomName : String} {room : Room}

/-- The registry after the member `entry` has left its room. -/
def without (manager : RoomManager) (entry : Participant) (roomName : String) (room : Room) :
    RoomManager :=
  { manager with
    connRoom := manager.connRoom.erase entry.conn
    rooms := pruned manager.rooms roomName
      { room with participants := others entry.conn room.participants } }

theorem leave_bound (consistent : Consistent manager)
    (home : manager.connRoom.lookup entry.conn = some roomName)
    (found : manager.rooms.lookup roomName = some room) (member : entry ∈ room.participants) :
    manager.leave entry.conn =
      (manager.without entry roomName room,
        if entry.id ≠ 0 then (others entry.conn room.participants).map fun q =>
          { conn := q.conn, frame := .peerLeft roomName entry.id } else []) := by
  have once := consistent.once roomName
  rw [roster_of_lookup found] at once
  have leaving : room.entryOf entry.conn = some entry := find?_entry once member
  have remaining : room.participants.eraseP (fun p => p.conn = entry.conn) =
      others entry.conn room.participants := eraseP_eq_others once
  simp only [leave, home, found, leaving, remaining, Option.map_some, Option.getD_some, without]

theorem roster_without (consistent : Consistent manager)
    (home : manager.connRoom.lookup entry.conn = some roomName)
    (found : manager.rooms.lookup roomName = some room) (name : String) :
    (manager.without entry roomName room).roster name =
      others entry.conn (manager.roster name) := by
  rw [RoomManager.roster, without, lookup_pruned]
  by_cases here : name = roomName
  · rw [if_pos here, here, roster_of_lookup found]
    split
    · rename_i empty
      exact (List.isEmpty_iff.mp empty).symm
    · rfl
  · rw [if_neg here]
    apply (others_of_elsewhere consistent _).symm
    rw [home]
    exact fun same => here (Option.some.inj same).symm

theorem left_bound (consistent : Consistent manager)
    (home : manager.connRoom.lookup entry.conn = some roomName)
    (found : manager.rooms.lookup roomName = some room) (member : entry ∈ room.participants) :
    Left manager entry.conn (manager.without entry roomName room)
      (if entry.id ≠ 0 then (others entry.conn room.participants).map fun q =>
        { conn := q.conn, frame := .peerLeft roomName entry.id } else []) := by
  have once := consistent.once roomName
  rw [roster_of_lookup found] at once
  have rosterAfter := roster_without consistent home found
  have connRoomAfter : ∀ other, (manager.connRoom.erase entry.conn).lookup other =
      if other = entry.conn then none else manager.connRoom.lookup other :=
    fun other => lookup_erase_eq other
  refine ⟨rfl, rosterAfter, connRoomAfter, fun unbound => ?_, fun name p isMember same => ?_,
    consistent_without consistent found rfl rosterAfter connRoomAfter⟩
  · cases home.symm.trans unbound
  · have sameRoom : name = roomName := by
      have bound := (consistent.bound entry.conn name).mpr (List.mem_map.mpr ⟨p, isMember, same⟩)
      exact Option.some.inj (bound.symm.trans home)
    rw [sameRoom, roster_of_lookup found] at isMember ⊢
    have samePerson : p = entry := List.inj_on_of_nodup_map once isMember member same
    rw [samePerson]

end LeaveBound

theorem left_leave (consistent : Consistent manager) (conn : ConnectionHandle) :
    Left manager conn (manager.leave conn).1 (manager.leave conn).2 := by
  cases home : manager.connRoom.lookup conn with
  | none =>
      rw [leave_unbound home]
      exact left_unbound consistent home
  | some roomName =>
      have listed := (consistent.bound conn roomName).mp home
      rcases List.mem_map.mp listed with ⟨entry, entryMember, rfl⟩
      rcases lookup_of_mem_roster entryMember with ⟨room, found, participants⟩
      rw [← participants] at entryMember
      rw [leave_bound consistent home found entryMember]
      exact left_bound consistent home found entryMember

/-- What a successful join does to the registry left behind by the implicit
leave: the newcomer is put at the end of its room's roster. -/
structure Joined (vacated : RoomManager) (roomName : String) (conn : ConnectionHandle)
    (after : RoomManager) : Prop where
  nextId : after.nextId = vacated.nextId + 1
  roster : ∀ name, after.roster name =
    if name = roomName then vacated.roster roomName ++ [{ id := vacated.nextId, conn }]
    else vacated.roster name
  connRoom : ∀ other, after.connRoom.lookup other =
    if other = conn then some roomName else vacated.connRoom.lookup other
  consistent : Consistent after

/-- The three ways a join can end. -/
inductive JoinOutcome (manager : RoomManager) (roomName : String)
    (conn : ConnectionHandle) : Prop where
  | invalid (arguments : roomName = "" ∨ conn = 0)
      (result : manager.join roomName conn = (manager, [], .error .invalidArgument))
  | full (vacated after : RoomManager) (left : List Sent)
      (leaves : Left manager conn vacated left)
      (tooMany : kMaxParticipants ≤ (vacated.roster roomName).length)
      (same : SameRegistry vacated after)
      (result : manager.join roomName conn = (after, left, .error .resourceExhausted))
  | success (vacated after : RoomManager) (left : List Sent)
      (leaves : Left manager conn vacated left)
      (joins : Joined vacated roomName conn after)
      (result : manager.join roomName conn =
        (after, left ++ announce roomName (after.roster roomName) manager.nextId conn,
          .ok manager.nextId))

theorem Left.absent {vacated : RoomManager} {left : List Sent}
    (leaves : Left manager conn vacated left) (name : String) :
    conn ∉ (vacated.roster name).map Participant.conn := by
  intro member
  rcases List.mem_map.mp member with ⟨p, listed, same⟩
  rw [leaves.roster] at listed
  exact (mem_others.mp listed).2 same

/-- The room that `join` works on, whether it was there or has just been made. -/
theorem room_of_roster (consistent : Consistent manager) {roomName : String}
    (named : roomName ≠ "") :
    (let room := (manager.rooms.lookup roomName).getD { name := "", participants := [] }
     if room.name.isEmpty then { room with name := roomName } else room) =
      { name := roomName, participants := manager.roster roomName } := by
  cases found : manager.rooms.lookup roomName with
  | none =>
      rw [roster_of_missing found]
      rfl
  | some room =>
      have sameName := (consistent.registered roomName room found).1
      have notEmpty : roomName.isEmpty = false := by simpa using named
      rw [roster_of_lookup found, ← sameName]
      rw [← sameName] at notEmpty
      simp only [Option.getD_some, notEmpty, Bool.false_eq_true, if_false]

/-- A registry with one connection more, in a room that had a place for it, is
consistent. -/
theorem consistent_with {vacated after : RoomManager} {left : List Sent} {roomName : String}
    (leaves : Left manager conn vacated left)
    (place : (vacated.roster roomName).length < kMaxParticipants)
    (rooms : after.rooms = vacated.rooms.insert roomName
      { name := roomName
        participants := vacated.roster roomName ++ [{ id := vacated.nextId, conn }] })
    (roster : ∀ name, after.roster name =
      if name = roomName then vacated.roster roomName ++ [{ id := vacated.nextId, conn }]
      else vacated.roster name)
    (connRoom : ∀ other, after.connRoom.lookup other =
      if other = conn then some roomName else vacated.connRoom.lookup other) :
    Consistent after := by
  refine ⟨fun name room found => ?_, fun name => ?_, fun other name => ?_⟩
  · rw [rooms, lookup_insert_eq] at found
    split at found
    · rename_i here
      cases found
      refine ⟨here.symm, ?_, ?_⟩
      · rw [List.length_append]
        exact Nat.le_add_left 1 _
      · rw [List.length_append]
        exact place
    · exact leaves.consistent.registered name room found
  · rw [roster]
    split
    · rw [List.map_append, List.nodup_append]
      refine ⟨leaves.consistent.once roomName, List.nodup_singleton _, ?_⟩
      intro listed member new isNew same
      rw [same, List.mem_singleton.mp isNew] at member
      exact leaves.absent roomName member
    · exact leaves.consistent.once name
  · rw [connRoom, roster]
    by_cases newcomer : other = conn
    · rw [if_pos newcomer, newcomer]
      constructor
      · intro sameRoom
        cases sameRoom
        rw [if_pos rfl, List.map_append]
        exact List.mem_append_right _ (List.mem_singleton.mpr rfl)
      · intro member
        split at member
        · rename_i here
          rw [here]
        · exact absurd member (leaves.absent name)
    · rw [if_neg newcomer, leaves.consistent.bound other name]
      split
      · rename_i here
        rw [here, List.map_append, List.mem_append]
        constructor
        · exact Or.inl
        · intro member
          rcases member with listed | isNew
          · exact listed
          · exact absurd (List.mem_singleton.mp isNew) newcomer
      · exact Iff.rfl

theorem joined_insert {vacated : RoomManager} {left : List Sent} {roomName : String}
    (leaves : Left manager conn vacated left)
    (place : (vacated.roster roomName).length < kMaxParticipants) :
    Joined vacated roomName conn
      { nextId := vacated.nextId + 1
        rooms := vacated.rooms.insert roomName
          { name := roomName
            participants := vacated.roster roomName ++ [{ id := vacated.nextId, conn }] }
        connRoom := vacated.connRoom.insert conn roomName } := by
  have rosterAfter : ∀ name, RoomManager.roster
      { nextId := vacated.nextId + 1
        rooms := vacated.rooms.insert roomName
          { name := roomName
            participants := vacated.roster roomName ++ [{ id := vacated.nextId, conn }] }
        connRoom := vacated.connRoom.insert conn roomName } name =
      if name = roomName then vacated.roster roomName ++ [{ id := vacated.nextId, conn }]
      else vacated.roster name := by
    intro name
    rw [RoomManager.roster, lookup_insert_eq]
    split <;> rfl
  have connRoomAfter : ∀ other, (vacated.connRoom.insert conn roomName).lookup other =
      if other = conn then some roomName else vacated.connRoom.lookup other :=
    fun other => lookup_insert_eq other roomName
  exact ⟨rfl, rosterAfter, connRoomAfter,
    consistent_with leaves place rfl rosterAfter connRoomAfter⟩

theorem joinOutcome (consistent : Consistent manager) (roomName : String)
    (conn : ConnectionHandle) : JoinOutcome manager roomName conn := by
  by_cases arguments : roomName.isEmpty ∨ conn = 0
  · apply JoinOutcome.invalid
    · exact arguments.imp_left fun empty => by simpa using empty
    · rw [join, if_pos arguments]
  · have named : roomName ≠ "" := fun empty => arguments (Or.inl (by simp [empty]))
    have leaves := left_leave consistent conn
    have vacates : (if conn ∈ manager.connRoom then manager.leave conn else (manager, [])) =
        manager.leave conn := by
      split
      · rfl
      · rename_i unknown
        rw [leave, not_mem_iff_lookup.mp unknown]
    have room := room_of_roster leaves.consistent named
    by_cases full : ((manager.leave conn).1.roster roomName).length ≥ kMaxParticipants
    · have occupied : ((manager.leave conn).1.roster roomName).isEmpty = false := by
        rw [List.isEmpty_eq_false_iff_exists_mem]
        apply List.exists_mem_of_length_pos
        exact Nat.lt_of_lt_of_le (by decide) full
      have outcome : manager.join roomName conn =
          ({ (manager.leave conn).1 with
              rooms := (manager.leave conn).1.rooms.insert roomName
                { name := roomName, participants := (manager.leave conn).1.roster roomName } },
            (manager.leave conn).2, .error .resourceExhausted) := by
        simp only [join, if_neg arguments, vacates]
        simp only [room, if_pos full, occupied, Bool.false_eq_true, if_false]
      apply JoinOutcome.full _ _ _ leaves full _ outcome
      refine ⟨rfl, fun name => ?_, fun _ => rfl⟩
      rw [lookup_insert_eq]
      split
      · rename_i here
        rw [here]
        rcases List.exists_mem_of_length_pos (Nat.lt_of_lt_of_le (by decide) full) with ⟨p, member⟩
        rcases lookup_of_mem_roster member with ⟨kept, found, participants⟩
        rw [found, ← participants, ← (leaves.consistent.registered roomName kept found).1]
      · rfl
    · have joins := joined_insert leaves (Nat.lt_of_not_ge full)
      refine .success _ _ _ leaves joins ?_
      rw [joins.roster, if_pos rfl]
      simp only [join, if_neg arguments, vacates]
      simp only [room, if_neg full, leaves.nextId]

/-- The registry stays consistent, whatever is called. -/
theorem Consistent.call (consistent : Consistent manager) (call : Call) :
    Consistent (manager.call call).1 := by
  cases call with
  | join roomName conn =>
      simp only [RoomManager.call]
      cases joinOutcome consistent roomName conn with
      | invalid arguments result =>
          rw [result]
          exact consistent
      | full vacated after left leaves tooMany same result =>
          rw [result]
          exact same.consistent leaves.consistent
      | success vacated after left leaves joins result =>
          rw [result]
          exact joins.consistent
  | leave conn => exact (left_leave consistent conn).consistent
  | relay conn type target rawJson => exact consistent

/-! ## Ids -/

def Frame.isJoined : Frame → Bool
  | .joined _ _ _ => true
  | _ => false

/-- The number of ids handed out: every successful join sends one `joined`. -/
def issued (sent : List Sent) : Nat := sent.countP fun delivery => delivery.frame.isJoined

@[simp] theorem issued_append (earlier later : List Sent) :
    issued (earlier ++ later) = issued earlier + issued later :=
  List.countP_append

theorem issued_map {participants : List Participant} {frame : Participant → Frame}
    (quiet : ∀ p, (frame p).isJoined = false) :
    issued (participants.map fun p => { conn := p.conn, frame := frame p }) = 0 := by
  rw [issued, List.countP_map, List.countP_eq_zero]
  intro p _
  simp [quiet]

theorem Left.issued {vacated : RoomManager} {left : List Sent}
    (consistent : Consistent manager) (leaves : Left manager conn vacated left) :
    issued left = 0 := by
  cases home : manager.connRoom.lookup conn with
  | none =>
      rw [leaves.unbound home]
      rfl
  | some roomName =>
      rcases List.mem_map.mp ((consistent.bound conn roomName).mp home) with ⟨p, member, same⟩
      rw [leaves.bound roomName p member same]
      split
      · exact issued_map fun _ => rfl
      · rfl

theorem issued_announce (roomName : String) (participants : List Participant)
    (id : ParticipantId) (conn : ConnectionHandle) :
    issued (announce roomName participants id conn) = 1 := by
  have notices : issued ((participants.filter fun p => p.conn ≠ conn).map fun p =>
      { conn := p.conn, frame := .peerJoined roomName id }) = 0 := issued_map fun _ => rfl
  rw [issued] at notices
  rw [issued, announce]
  simp only [List.countP_cons, notices]
  rfl

theorem issued_relay (conn : ConnectionHandle) (type : String) (target : ParticipantId)
    (rawJson : Document) : issued (manager.relay conn type target rawJson).1 = 0 := by
  rw [relay]
  split
  · rfl
  · split
    · rfl
    · split
      · rfl
      · split
        · split <;> rfl
        · exact issued_map fun _ => rfl

/-- While the counter has not wrapped, the ids in use are those handed out, each
for one participant. -/
structure Identified (count : Nat) (manager : RoomManager) : Prop where
  counter : manager.nextId = BitVec.ofNat 64 (count + 1)
  range : ∀ name p, p ∈ manager.roster name → 1 ≤ p.id.toNat ∧ p.id.toNat ≤ count
  distinct : ∀ name p, p ∈ manager.roster name → ∀ otherName q, q ∈ manager.roster otherName →
    p.id = q.id → p = q

theorem Identified.create : Identified 0 RoomManager.create where
  counter := rfl
  range := fun _ _ member => nomatch member
  distinct := fun _ _ member => nomatch member

theorem Identified.left {count : Nat} (identified : Identified count manager)
    {vacated : RoomManager} {left : List Sent} (leaves : Left manager conn vacated left) :
    Identified count vacated where
  counter := leaves.nextId.trans identified.counter
  range := by
    intro name p member
    rw [leaves.roster] at member
    exact identified.range name p (mem_others.mp member).1
  distinct := by
    intro name p member otherName q otherMember
    rw [leaves.roster] at member otherMember
    exact identified.distinct name p (mem_others.mp member).1 otherName q
      (mem_others.mp otherMember).1

theorem Identified.same {count : Nat} (identified : Identified count manager)
    {after : RoomManager} (same : SameRegistry manager after) : Identified count after where
  counter := same.nextId.trans identified.counter
  range := fun name p member => identified.range name p (same.roster name ▸ member)
  distinct := fun name p member otherName q otherMember =>
    identified.distinct name p (same.roster name ▸ member) otherName q
      (same.roster otherName ▸ otherMember)

/-- The id of the next join is the number of joins up to it. -/
theorem Identified.nextId_toNat {count : Nat} (identified : Identified count manager)
    (bounded : count + 1 < 2 ^ 64) : manager.nextId.toNat = count + 1 := by
  rw [identified.counter, BitVec.toNat_ofNat]
  exact Nat.mod_eq_of_lt bounded

theorem Identified.joined {count : Nat} (identified : Identified count manager)
    (bounded : count + 1 < 2 ^ 64) {roomName : String} {after : RoomManager}
    (joins : Joined manager roomName conn after) : Identified (count + 1) after := by
  have fresh := identified.nextId_toNat bounded
  have member : ∀ name p, p ∈ after.roster name →
      p ∈ manager.roster name ∨ p = { id := manager.nextId, conn } := by
    intro name p listed
    rw [joins.roster] at listed
    split at listed
    · rename_i here
      rw [here]
      exact (List.mem_append.mp listed).imp_right List.mem_singleton.mp
    · exact Or.inl listed
  have unused : ∀ name p, p ∈ manager.roster name → p.id ≠ manager.nextId := by
    intro name p listed same
    have below := (identified.range name p listed).2
    rw [same, fresh] at below
    exact Nat.not_succ_le_self count below
  refine ⟨?_, fun name p listed => ?_, fun name p listed otherName q otherListed same => ?_⟩
  · rw [joins.nextId, identified.counter, BitVec.ofNat_add (count + 1)]
    rfl
  · rcases member name p listed with earlier | newcomer
    · rcases identified.range name p earlier with ⟨positive, below⟩
      exact ⟨positive, Nat.le_succ_of_le below⟩
    · rw [newcomer]
      simp only [fresh]
      exact ⟨Nat.le_add_left 1 count, Nat.le_refl _⟩
  · rcases member name p listed with earlier | newcomer
    · rcases member otherName q otherListed with otherEarlier | otherNewcomer
      · exact identified.distinct name p earlier otherName q otherEarlier same
      · rw [otherNewcomer] at same
        exact absurd same (unused name p earlier)
    · rcases member otherName q otherListed with otherEarlier | otherNewcomer
      · rw [newcomer] at same
        exact absurd same.symm (unused otherName q otherEarlier)
      · rw [newcomer, otherNewcomer]

/-- Ids are not repeated within a room. -/
theorem nodup_ids {count : Nat} (consistent : Consistent manager)
    (identified : Identified count manager) (name : String) :
    ((manager.roster name).map Participant.id).Nodup := by
  apply List.Nodup.map_on
  · intro p member q otherMember same
    exact identified.distinct name p member name q otherMember same
  · exact (consistent.once name).of_map

theorem Identified.call {count : Nat} (consistent : Consistent manager)
    (identified : Identified count manager) (call : Call)
    (bounded : count + issued (manager.call call).2 < 2 ^ 64) :
    Identified (count + issued (manager.call call).2) (manager.call call).1 := by
  cases call with
  | join roomName conn =>
      simp only [RoomManager.call] at bounded ⊢
      cases joinOutcome consistent roomName conn with
      | invalid arguments result =>
          rw [result]
          exact identified
      | full vacated after left leaves tooMany same result =>
          rw [result]
          simp only [leaves.issued consistent, Nat.add_zero]
          exact (identified.left leaves).same same
      | success vacated after left leaves joins result =>
          rw [result] at bounded ⊢
          simp only [issued_append, leaves.issued consistent, issued_announce, Nat.zero_add]
            at bounded ⊢
          exact (identified.left leaves).joined bounded joins
  | leave conn =>
      have leaves := left_leave consistent conn
      simp only [RoomManager.call, leaves.issued consistent, Nat.add_zero]
      exact identified.left leaves
  | relay conn type target rawJson =>
      simp only [RoomManager.call, issued_relay, Nat.add_zero]
      exact identified

/-! ## Whole runs -/

theorem consistent_run (calls : List Call) : Consistent (machine.run calls) :=
  Machine.invariant Consistent.create (fun _ call consistent => consistent.call call) calls

theorem identified_run (calls : List Call)
    (bounded : issued (machine.outputs calls).flatten < 2 ^ 64) :
    Identified (issued (machine.outputs calls).flatten) (machine.run calls) := by
  induction calls using List.reverseRecOn with
  | nil => exact .create
  | append_singleton past call induction =>
      rw [Machine.outputs_snoc, List.flatten_append, List.flatten_singleton, issued_append]
        at bounded ⊢
      rw [Machine.run_snoc]
      have before := induction (Nat.lt_of_le_of_lt (Nat.le_add_right _ _) bounded)
      exact before.call (consistent_run past) call bounded

theorem idFor_of_mem (consistent : Consistent manager) {p : Participant}
    (member : p ∈ manager.roster name) : manager.idFor p.conn = p.id := by
  have home := (consistent.bound p.conn name).mpr (List.mem_map.mpr ⟨p, member, rfl⟩)
  rcases lookup_of_mem_roster member with ⟨room, found, participants⟩
  have once := consistent.once name
  rw [← participants] at once member
  have entry : room.entryOf p.conn = some p := find?_entry once member
  simp only [idFor, home, found, entry, Option.map_some, Option.getD_some]

theorem idFor_of_unbound (unbound : manager.connRoom.lookup conn = none) :
    manager.idFor conn = 0 := by
  rw [idFor, unbound]

theorem Identified.ne_zero {count : Nat} (identified : Identified count manager) {p : Participant}
    (member : p ∈ manager.roster name) : p.id ≠ 0 := by
  intro zero
  have positive := (identified.range name p member).1
  rw [zero] at positive
  exact absurd positive (by decide)

theorem mem_roster_iff {p : Participant} :
    p ∈ manager.roster name ↔
      ∃ room, manager.rooms.lookup name = some room ∧ p ∈ room.participants := by
  rw [roster]
  cases manager.rooms.lookup name <;> simp

/-- After any calls, every room is filed under its name and has one to eight
participants, no connection twice, and a connection leads to a room exactly when
that room lists it. As long as fewer than `2 ^ 64` joins have succeeded, all ids
are non-zero and each belongs to one participant, and a connection has an id
exactly when it is in a room. -/
theorem registry_consistent (calls : List Call) :
    (∀ name room, (machine.run calls).rooms.lookup name = some room →
      room.name = name ∧ 1 ≤ room.participants.length ∧ room.participants.length ≤ 8 ∧
        (room.participants.map Participant.conn).Nodup) ∧
    (∀ conn name, (machine.run calls).connRoom.lookup conn = some name ↔
      ∃ room, (machine.run calls).rooms.lookup name = some room ∧
        conn ∈ room.participants.map Participant.conn) ∧
    (issued (machine.outputs calls).flatten < 2 ^ 64 →
      (∀ name room p, (machine.run calls).rooms.lookup name = some room →
        p ∈ room.participants → p.id ≠ 0 ∧
          ∀ otherName otherRoom q, (machine.run calls).rooms.lookup otherName = some otherRoom →
            q ∈ otherRoom.participants → p.id = q.id → name = otherName ∧ p = q) ∧
      ∀ conn, (machine.run calls).idFor conn ≠ 0 ↔
        ∃ name room, (machine.run calls).rooms.lookup name = some room ∧
          conn ∈ room.participants.map Participant.conn) := by
  have consistent := consistent_run calls
  have boundIff : ∀ conn name, (machine.run calls).connRoom.lookup conn = some name ↔
      ∃ room, (machine.run calls).rooms.lookup name = some room ∧
        conn ∈ room.participants.map Participant.conn := by
    intro conn name
    rw [consistent.bound conn name, roster]
    cases (machine.run calls).rooms.lookup name <;> simp
  refine ⟨fun name room found => ?_, boundIff, fun bounded => ?_⟩
  · rcases consistent.registered name room found with ⟨named, occupied, limit⟩
    have once := consistent.once name
    rw [roster_of_lookup found] at once
    exact ⟨named, occupied, limit, once⟩
  · have identified := identified_run calls bounded
    refine ⟨fun name room p found member => ?_, fun conn => ?_⟩
    · have listed := mem_roster_iff.mpr ⟨room, found, member⟩
      refine ⟨identified.ne_zero listed,
        fun otherName otherRoom q otherFound otherMember same => ?_⟩
      have otherListed := mem_roster_iff.mpr ⟨otherRoom, otherFound, otherMember⟩
      have samePerson := identified.distinct name p listed otherName q otherListed same
      have here := (boundIff p.conn name).mpr ⟨room, found, List.mem_map.mpr ⟨p, member, rfl⟩⟩
      have there := (boundIff q.conn otherName).mpr
        ⟨otherRoom, otherFound, List.mem_map.mpr ⟨q, otherMember, rfl⟩⟩
      rw [← samePerson] at there
      exact ⟨Option.some.inj (here.symm.trans there), samePerson⟩
    · constructor
      · intro known
        cases home : (machine.run calls).connRoom.lookup conn with
        | none => exact absurd (idFor_of_unbound home) known
        | some name => exact ⟨name, (boundIff conn name).mp home⟩
      · intro inRoom
        rcases inRoom with ⟨name, room, found, listed⟩
        rcases List.mem_map.mp listed with ⟨p, member, same⟩
        have inRoster := mem_roster_iff.mpr ⟨room, found, member⟩
        rw [← same, idFor_of_mem consistent inRoster]
        exact identified.ne_zero inRoster

/-- Two connections of one room and a third that was refused. -/
theorem registry_consistent_two_joined :
    (machine.run [.join "room" 1, .join "room" 2, .join "" 3]).idFor 2 ≠ 0 :=
  (((registry_consistent [.join "room" 1, .join "room" 2, .join "" 3]).2.2 (by decide)).2 2).mpr
    ⟨"room", _, rfl, by decide⟩

/-! ## The counter wraps -/

/-- A join that finds a place. -/
theorem call_join_success (consistent : Consistent manager) {roomName : String}
    (named : roomName ≠ "") (notNull : conn ≠ 0)
    (place : (others conn (manager.roster roomName)).length < kMaxParticipants) :
    (manager.call (.join roomName conn)).1.nextId = manager.nextId + 1 ∧
      (manager.call (.join roomName conn)).1.roster roomName =
        others conn (manager.roster roomName) ++ [{ id := manager.nextId, conn }] ∧
      ∃ left, (manager.call (.join roomName conn)).2 = left ++ announce roomName
        ((manager.call (.join roomName conn)).1.roster roomName) manager.nextId conn := by
  simp only [RoomManager.call]
  cases joinOutcome consistent roomName conn with
  | invalid arguments result => exact absurd arguments (not_or.mpr ⟨named, notNull⟩)
  | full vacated after left leaves tooMany same result =>
      rw [leaves.roster] at tooMany
      exact absurd place (Nat.not_lt.mpr tooMany)
  | success vacated after left leaves joins result =>
      rw [result]
      refine ⟨?_, ?_, left, rfl⟩
      · rw [← leaves.nextId]
        exact joins.nextId
      · simp only
        rw [joins.roster, if_pos rfl, leaves.roster, leaves.nextId]

/-- One connection stays while another joins the same room again and again. -/
def rejoining (count : Nat) : List Call :=
  .join "room" 1 :: List.replicate count (.join "room" 2)

theorem rejoining_succ (count : Nat) :
    rejoining (count + 1) = rejoining count ++ [.join "room" 2] := by
  rw [rejoining, List.replicate_succ', rejoining, List.cons_append]

theorem run_rejoining (count : Nat) :
    (machine.run (rejoining count)).nextId = BitVec.ofNat 64 (count + 2) ∧
      others 2 ((machine.run (rejoining count)).roster "room") = [{ id := 1, conn := 1 }] := by
  induction count with
  | zero => exact ⟨rfl, rfl⟩
  | succ count induction =>
      rcases induction with ⟨counter, remaining⟩
      have place : (others 2 ((machine.run (rejoining count)).roster "room")).length <
          kMaxParticipants := by
        rw [remaining]
        decide
      have joined :=
        call_join_success (consistent_run (rejoining count)) (by decide) (by decide) place
      have next : machine.next (machine.run (rejoining count)) (.join "room" 2) =
          ((machine.run (rejoining count)).call (.join "room" 2)).1 := rfl
      rw [rejoining_succ, Machine.run_snoc, next, joined.1, joined.2.1, remaining, counter]
      exact ⟨(BitVec.ofNat_add (count + 2) 1).symm, rfl⟩

/-- One more of these joins. -/
theorem step_rejoining (count : Nat) :
    (machine.run (rejoining (count + 1))).roster "room" =
        [{ id := 1, conn := 1 }, { id := BitVec.ofNat 64 (count + 2), conn := 2 }] ∧
      ∃ left, (machine.outputs (rejoining (count + 1))).flatten =
        (machine.outputs (rejoining count)).flatten ++ (left ++ announce "room"
          [{ id := 1, conn := 1 }, { id := BitVec.ofNat 64 (count + 2), conn := 2 }]
          (BitVec.ofNat 64 (count + 2)) 2) := by
  rcases run_rejoining count with ⟨counter, remaining⟩
  have place : (others 2 ((machine.run (rejoining count)).roster "room")).length <
      kMaxParticipants := by
    rw [remaining]
    decide
  rcases call_join_success (consistent_run (rejoining count)) (by decide) (by decide) place with
    ⟨_, roster, left, sent⟩
  rw [roster, remaining, counter] at sent
  rw [remaining, counter] at roster
  rw [rejoining_succ, Machine.run_snoc, Machine.outputs_snoc, List.flatten_append,
    List.flatten_singleton]
  exact ⟨roster, left, congrArg _ sent⟩

theorem roster_rejoining {count : Nat} (positive : 1 ≤ count) :
    (machine.run (rejoining count)).roster "room" =
      [{ id := 1, conn := 1 }, { id := BitVec.ofNat 64 (count + 1), conn := 2 }] := by
  cases count with
  | zero => cases positive
  | succ count => exact (step_rejoining count).1

/-- The id counter has gone round once: two participants of a room share an id. -/
theorem ids_repeat_after_wrap :
    ∃ room p q, (machine.run (rejoining (2 ^ 64))).rooms.lookup "room" = some room ∧
      p ∈ room.participants ∧ q ∈ room.participants ∧ p ≠ q ∧ p.id = q.id := by
  have roster := roster_rejoining (Nat.one_le_two_pow : 1 ≤ 2 ^ 64)
  have wrapped : BitVec.ofNat 64 (2 ^ 64 + 1) = 1 := by decide
  rw [wrapped] at roster
  have first : ({ id := 1, conn := 1 } : Participant) ∈
      (machine.run (rejoining (2 ^ 64))).roster "room" := by
    rw [roster]
    exact List.mem_cons_self
  rcases lookup_of_mem_roster first with ⟨room, found, participants⟩
  refine ⟨room, { id := 1, conn := 1 }, { id := 1, conn := 2 }, found, ?_, ?_, by simp, rfl⟩
  · rw [participants]
    exact first
  · rw [participants, roster]
    exact List.mem_cons_of_mem _ List.mem_cons_self

end RoomManager

end Vela
