import Vela.SignalingServer.Registry

/-! # Rosters rebuilt from frames

A client learns who is in its room from frames alone: the list it gets when it
joins, then one notice for each arrival and departure. Replaying the frames gives
what the registry holds. -/

namespace Vela

open Foundation UnorderedMap

namespace RoomManager

/-! ## Replaying frames -/

/-- What one frame makes of a client's roster. A `joined` starts a new one; the
roster is lost when an id comes in twice or an absent one goes. -/
def follow (view : Option (List ParticipantId)) : Frame → Option (List ParticipantId)
  | .joined _ _ peers => if peers.Nodup then some peers else none
  | .peerJoined _ sender =>
      view.bind fun ids => if sender ∈ ids then none else some (ids ++ [sender])
  | .peerLeft _ sender =>
      view.bind fun ids => if sender ∈ ids then some (ids.erase sender) else none
  | .relayed _ => view
  | .error _ => view

def replay (frames : List Frame) : Option (List ParticipantId) := frames.foldl follow none

def framesTo (conn : ConnectionHandle) (sent : List Sent) : List Frame :=
  (sent.filter fun delivery => delivery.conn = conn).map Sent.frame

theorem replay_append (earlier later : List Frame) :
    replay (earlier ++ later) = later.foldl follow (replay earlier) := by
  simp [replay]

@[simp] theorem framesTo_append (conn : ConnectionHandle) (earlier later : List Sent) :
    framesTo conn (earlier ++ later) = framesTo conn earlier ++ framesTo conn later := by
  simp [framesTo]

/-- A notice to a list of participants reaches each of them once. -/
theorem framesTo_notice {conn : ConnectionHandle} {participants : List Participant} {frame : Frame}
    (once : (participants.map Participant.conn).Nodup) :
    framesTo conn (participants.map fun p => { conn := p.conn, frame }) =
      if conn ∈ participants.map Participant.conn then [frame] else [] := by
  induction participants with
  | nil => rfl
  | cons p rest induction =>
      rw [List.map_cons, List.nodup_cons] at once
      have restFrames := induction once.2
      rw [framesTo] at restFrames ⊢
      rw [List.map_cons]
      by_cases here : p.conn = conn
      · rw [List.filter_cons_of_pos (by simpa using here), List.map_cons, restFrames,
          if_neg (here ▸ once.1), if_pos]
        exact List.mem_map.mpr ⟨p, List.mem_cons_self, here⟩
      · rw [List.filter_cons_of_neg (by simpa using here), restFrames, List.map_cons]
        simp only [List.mem_cons, Ne.symm here, false_or]

/-- An arrival is one frame to the newcomer and one to each of the others. -/
theorem framesTo_announce {conn joiner : ConnectionHandle} {roomName : String}
    {participants : List Participant} {id : ParticipantId}
    (once : (participants.map Participant.conn).Nodup) :
    framesTo conn (announce roomName participants id joiner) =
      (if conn = joiner then
        [.joined roomName id ((participants.filter fun p => p.id ≠ id).map Participant.id)]
      else []) ++
      if conn ∈ (others joiner participants).map Participant.conn then [.peerJoined roomName id]
      else [] := by
  have notices : framesTo conn ((others joiner participants).map fun p =>
        { conn := p.conn, frame := .peerJoined roomName id }) = _ :=
    framesTo_notice (once.sublist ((others_sublist participants).map Participant.conn))
  rw [← notices, announce, framesTo, framesTo, others]
  by_cases newcomer : conn = joiner
  · rw [if_pos newcomer, List.filter_cons_of_pos (by simp [newcomer])]
    rfl
  · rw [if_neg newcomer, List.filter_cons_of_neg (by simpa using Ne.symm newcomer)]
    rfl

/-- Frames that are no notices leave the roster alone. -/
theorem foldl_follow_relayed {view : Option (List ParticipantId)} {frames : List Frame}
    (relays : ∀ frame ∈ frames, ∃ rawJson, frame = .relayed rawJson) :
    frames.foldl follow view = view := by
  induction frames with
  | nil => rfl
  | cons frame rest induction =>
      rcases relays frame List.mem_cons_self with ⟨rawJson, rfl⟩
      exact induction fun later member => relays later (List.mem_cons_of_mem _ member)

/-! ## Agreement -/

variable {manager : RoomManager} {conn : ConnectionHandle} {history : List Sent}

/-- A roster lists the ids of some participants, each once. -/
def Lists (view : List ParticipantId) (participants : List Participant) : Prop :=
  view.Nodup ∧ ∀ id, id ∈ view ↔ ∃ p ∈ participants, p.id = id

/-- Every connection in a room can rebuild who else is there. -/
def Agrees (manager : RoomManager) (history : List Sent) : Prop :=
  ∀ conn name, manager.connRoom.lookup conn = some name →
    ∃ view, replay (framesTo conn history) = some view ∧
      Lists view (others conn (manager.roster name))

theorem nodup_others (consistent : Consistent manager) (name : String) :
    ((others conn (manager.roster name)).map Participant.conn).Nodup :=
  (consistent.once name).sublist ((others_sublist _).map _)

/-- The departure of one participant, seen by another of its room. -/
theorem Lists.remove {count : Nat} (consistent : Consistent manager)
    (identified : Identified count manager) {name : String}
    {leaving : Participant} (member : leaving ∈ manager.roster name) {view : List ParticipantId}
    (different : leaving.conn ≠ conn) (lists : Lists view (others conn (manager.roster name))) :
    leaving.id ∈ view ∧
      Lists (view.erase leaving.id) (others conn (others leaving.conn (manager.roster name))) := by
  refine ⟨(lists.2 leaving.id).mpr ⟨leaving, mem_others.mpr ⟨member, different⟩, rfl⟩,
    lists.1.erase _, fun id => ?_⟩
  rw [lists.1.mem_erase_iff, lists.2]
  constructor
  · intro isOther
    rcases isOther with ⟨notLeaving, p, listed, same⟩
    rcases mem_others.mp listed with ⟨inRoster, notSelf⟩
    refine ⟨p, mem_others.mpr ⟨mem_others.mpr ⟨inRoster, ?_⟩, notSelf⟩, same⟩
    intro sameConn
    have samePerson := List.inj_on_of_nodup_map (consistent.once name) inRoster member sameConn
    exact notLeaving (by rw [← same, samePerson])
  · intro isOther
    rcases isOther with ⟨p, listed, same⟩
    rcases mem_others.mp listed with ⟨stays, notSelf⟩
    rcases mem_others.mp stays with ⟨inRoster, notLeaving⟩
    refine ⟨?_, p, mem_others.mpr ⟨inRoster, notSelf⟩, same⟩
    intro isLeaving
    rw [← same] at isLeaving
    have samePerson := identified.distinct name p inRoster name leaving member isLeaving
    exact notLeaving (by rw [samePerson])

/-- The arrival of a participant under a fresh id, seen by another of its room. -/
theorem Lists.add {newcomer : Participant} {participants : List Participant}
    {view : List ParticipantId} (different : newcomer.conn ≠ conn)
    (fresh : ∀ p ∈ participants, p.id ≠ newcomer.id)
    (lists : Lists view (others conn participants)) :
    newcomer.id ∉ view ∧
      Lists (view ++ [newcomer.id]) (others conn (participants ++ [newcomer])) := by
  have unused : newcomer.id ∉ view := by
    intro member
    rcases (lists.2 newcomer.id).mp member with ⟨p, listed, same⟩
    exact fresh p (mem_others.mp listed).1 same
  refine ⟨unused, List.nodup_append.mpr ⟨lists.1, List.nodup_singleton _, ?_⟩, fun id => ?_⟩
  · intro known member new isNew same
    rw [same, List.mem_singleton.mp isNew] at member
    exact unused member
  · have split : others conn (participants ++ [newcomer]) =
        others conn participants ++ [newcomer] := by
      simp [others, different]
    rw [split, List.mem_append, lists.2, List.mem_singleton]
    constructor
    · intro known
      rcases known with ⟨p, listed, same⟩ | isNew
      · exact ⟨p, List.mem_append_left _ listed, same⟩
      · exact ⟨newcomer, List.mem_append_right _ (List.mem_singleton.mpr rfl), isNew.symm⟩
    · intro known
      rcases known with ⟨p, listed, same⟩
      rcases List.mem_append.mp listed with earlier | isNew
      · exact Or.inl ⟨p, earlier, same⟩
      · rw [List.mem_singleton.mp isNew] at same
        exact Or.inr same.symm

theorem Agrees.left {count : Nat} (consistent : Consistent manager)
    (identified : Identified count manager) (agrees : Agrees manager history)
    {leaver : ConnectionHandle} {vacated : RoomManager} {left : List Sent}
    (leaves : Left manager leaver vacated left) : Agrees vacated (history ++ left) := by
  intro conn name home
  rw [leaves.connRoom] at home
  split at home
  · cases home
  · rename_i different
    rcases agrees conn name home with ⟨view, replayed, lists⟩
    rw [framesTo_append, replay_append, replayed, leaves.roster]
    cases leaverHome : manager.connRoom.lookup leaver with
    | none =>
        have absent : leaver ∉ (manager.roster name).map Participant.conn := by
          intro listed
          rw [← consistent.bound, leaverHome] at listed
          cases listed
        rw [leaves.unbound leaverHome, others_of_not_mem absent]
        exact ⟨view, rfl, lists⟩
    | some leaverRoom =>
        rcases List.mem_map.mp ((consistent.bound leaver leaverRoom).mp leaverHome) with
          ⟨leaving, member, rfl⟩
        rw [leaves.bound leaverRoom leaving member rfl, if_pos (identified.ne_zero member),
          framesTo_notice (nodup_others consistent leaverRoom)]
        by_cases sameRoom : name = leaverRoom
        · -- A neighbour of the leaver: it is told once, and drops one id.
          rw [← sameRoom] at member ⊢
          have told : conn ∈ (others leaving.conn (manager.roster name)).map Participant.conn := by
            rcases List.mem_map.mp ((consistent.bound conn name).mp home) with ⟨p, listed, same⟩
            exact List.mem_map.mpr ⟨p, mem_others.mpr ⟨listed, same ▸ different⟩, same⟩
          rcases lists.remove consistent identified member (Ne.symm different) with ⟨known, removed⟩
          refine ⟨view.erase leaving.id, ?_, removed⟩
          rw [if_pos told]
          simp only [List.foldl_cons, List.foldl_nil, follow, Option.bind_some, if_pos known]
        · -- Somebody in another room: neither its frames nor its room change.
          have untold : conn ∉
              (others leaving.conn (manager.roster leaverRoom)).map Participant.conn := by
            intro listed
            rcases List.mem_map.mp listed with ⟨p, isOther, same⟩
            have there := (consistent.bound conn leaverRoom).mpr
              (List.mem_map.mpr ⟨p, (mem_others.mp isOther).1, same⟩)
            rw [home] at there
            exact sameRoom (Option.some.inj there)
          have absent : leaving.conn ∉ (manager.roster name).map Participant.conn := by
            intro listed
            rw [← consistent.bound, leaverHome] at listed
            exact sameRoom (Option.some.inj listed).symm
          rw [if_neg untold, others_of_not_mem absent]
          exact ⟨view, rfl, lists⟩

theorem Agrees.same {before after : RoomManager} (agrees : Agrees before history)
    (same : SameRegistry before after) : Agrees after history := by
  intro conn name home
  rw [same.connRoom] at home
  rw [same.roster]
  exact agrees conn name home

/-- The newcomer's first roster: everybody listed before it. -/
theorem peers_of_newcomer {participants : List Participant} {newcomer : Participant}
    (fresh : ∀ p ∈ participants, p.id ≠ newcomer.id) :
    ((participants ++ [newcomer]).filter fun p => p.id ≠ newcomer.id).map Participant.id =
      participants.map Participant.id := by
  have kept : participants.filter (fun p => p.id ≠ newcomer.id) = participants := by
    apply List.filter_eq_self.mpr
    intro p member
    simpa using fresh p member
  rw [List.filter_append, kept]
  simp

theorem Agrees.joined {count : Nat} {vacated after : RoomManager} {roomName : String}
    {joiner : ConnectionHandle} (consistent : Consistent vacated)
    (identified : Identified count vacated) (bounded : count + 1 < 2 ^ 64)
    (agrees : Agrees vacated history)
    (absent : ∀ name, joiner ∉ (vacated.roster name).map Participant.conn)
    (joins : Joined vacated roomName joiner after) :
    Agrees after
      (history ++ announce roomName (after.roster roomName) vacated.nextId joiner) := by
  have fresh : ∀ name, ∀ p ∈ vacated.roster name, p.id ≠ vacated.nextId := by
    intro name p member same
    have below := (identified.range name p member).2
    rw [same, identified.nextId_toNat bounded] at below
    exact Nat.not_succ_le_self count below
  have alone :
      others joiner (vacated.roster roomName ++ [{ id := vacated.nextId, conn := joiner }]) =
        vacated.roster roomName := by
    have kept := others_of_not_mem (absent roomName)
    rw [others] at kept ⊢
    rw [List.filter_append, kept]
    simp
  have peers := @peers_of_newcomer _ { id := vacated.nextId, conn := joiner } (fresh roomName)
  simp only at peers
  have onceAfter : ((vacated.roster roomName ++
      [({ id := vacated.nextId, conn := joiner } : Participant)]).map Participant.conn).Nodup := by
    have once := joins.consistent.once roomName
    rw [joins.roster, if_pos rfl] at once
    exact once
  intro conn name home
  rw [joins.connRoom] at home
  rw [framesTo_append, replay_append, joins.roster, joins.roster, if_pos rfl,
    framesTo_announce onceAfter, alone, peers]
  by_cases newcomer : conn = joiner
  · -- The newcomer itself: its roster starts with everybody listed before it.
    rw [if_pos newcomer] at home
    cases home
    have untold : conn ∉ (vacated.roster roomName).map Participant.conn :=
      newcomer ▸ absent roomName
    have listed := nodup_ids consistent identified roomName
    refine ⟨(vacated.roster roomName).map Participant.id, ?_, listed, fun id => ?_⟩
    · rw [if_pos newcomer, if_neg untold]
      simp only [List.append_nil, List.foldl_cons, List.foldl_nil, follow, if_pos listed]
    · rw [if_pos rfl, newcomer, alone]
      exact List.mem_map
  · rw [if_neg newcomer] at home
    rcases agrees conn name home with ⟨view, replayed, lists⟩
    rw [if_neg newcomer, replayed, List.nil_append]
    by_cases sameRoom : name = roomName
    · -- Somebody in the room: it is told once, and adds one id.
      rw [sameRoom] at home lists
      rw [if_pos sameRoom, if_pos ((consistent.bound conn roomName).mp home)]
      have added := @Lists.add conn { id := vacated.nextId, conn := joiner } _ view
        (Ne.symm newcomer) (fresh roomName) lists
      refine ⟨view ++ [vacated.nextId], ?_, added.2⟩
      simp only [List.foldl_cons, List.foldl_nil, follow, Option.bind_some, if_neg added.1]
    · have untold : conn ∉ (vacated.roster roomName).map Participant.conn := by
        intro listed
        rw [← consistent.bound, home] at listed
        exact sameRoom (Option.some.inj listed)
      rw [if_neg sameRoom, if_neg untold]
      exact ⟨view, rfl, lists⟩

/-- Relayed frames change no roster. -/
theorem relayed_of_relay {type : String} {target : ParticipantId} {rawJson : Document}
    {sender : ConnectionHandle} :
    ∀ delivery ∈ (manager.relay sender type target rawJson).1,
      delivery.frame = .relayed rawJson := by
  intro delivery member
  rw [relay] at member
  split at member
  · cases member
  · split at member
    · cases member
    · split at member
      · cases member
      · split at member
        · split at member
          · rw [List.mem_singleton.mp member]
          · cases member
        · rcases List.mem_map.mp member with ⟨p, _, same⟩
          rw [← same]

theorem Agrees.relay (agrees : Agrees manager history) {sent : List Sent}
    (relays : ∀ delivery ∈ sent, ∃ rawJson, delivery.frame = .relayed rawJson) :
    Agrees manager (history ++ sent) := by
  intro conn name home
  rcases agrees conn name home with ⟨view, replayed, lists⟩
  refine ⟨view, ?_, lists⟩
  rw [framesTo_append, replay_append, foldl_follow_relayed, replayed]
  intro frame member
  rcases List.mem_map.mp member with ⟨delivery, listed, same⟩
  rw [← same]
  exact relays delivery (List.mem_filter.mp listed).1

theorem Agrees.call {count : Nat} (consistent : Consistent manager)
    (identified : Identified count manager) (agrees : Agrees manager history) (call : Call)
    (bounded : count + issued (manager.call call).2 < 2 ^ 64) :
    Agrees (manager.call call).1 (history ++ (manager.call call).2) := by
  cases call with
  | join roomName conn =>
      simp only [RoomManager.call] at bounded ⊢
      cases joinOutcome consistent roomName conn with
      | invalid arguments result =>
          rw [result]
          simp only [List.append_nil]
          exact agrees
      | full vacated after left leaves tooMany same result =>
          rw [result]
          exact (agrees.left consistent identified leaves).same same
      | success vacated after left leaves joins result =>
          rw [result] at bounded ⊢
          simp only [issued_append, leaves.issued consistent, issued_announce, Nat.zero_add]
            at bounded
          have vacatedAgrees := agrees.left consistent identified leaves
          simp only
          rw [← List.append_assoc, ← leaves.nextId]
          exact vacatedAgrees.joined leaves.consistent
            (identified.left leaves) bounded leaves.absent
            joins
  | leave conn => exact agrees.left consistent identified (left_leave consistent conn)
  | relay conn type target rawJson =>
      exact agrees.relay fun delivery member => ⟨rawJson, relayed_of_relay delivery member⟩

theorem agrees_run (calls : List Call)
    (bounded : issued (machine.outputs calls).flatten < 2 ^ 64) :
    Agrees (machine.run calls) (machine.outputs calls).flatten := by
  induction calls using List.reverseRecOn with
  | nil => exact fun _ _ home => nomatch home
  | append_singleton past call induction =>
      rw [Machine.outputs_snoc, List.flatten_append, List.flatten_singleton, issued_append]
        at bounded
      have boundedBefore := Nat.lt_of_le_of_lt (Nat.le_add_right _ _) bounded
      rw [Machine.run_snoc, Machine.outputs_snoc, List.flatten_append, List.flatten_singleton]
      exact (induction boundedBefore).call (consistent_run past) (identified_run past boundedBefore)
        call bounded

/-- As long as fewer than `2 ^ 64` joins have succeeded, every connection in a room
can replay the frames it was sent since it joined: no id comes in twice, no absent
one goes, and what results is the ids of the room's other participants. -/
theorem roster_agreement (calls : List Call)
    (bounded : issued (machine.outputs calls).flatten < 2 ^ 64) (conn : ConnectionHandle)
    (name : String) (home : (machine.run calls).connRoom.lookup conn = some name) :
    ∃ view, replay (framesTo conn (machine.outputs calls).flatten) = some view ∧ view.Nodup ∧
      ∀ id, id ∈ view ↔ ∃ p ∈ (machine.run calls).roster name, p.conn ≠ conn ∧ p.id = id := by
  rcases agrees_run calls bounded conn name home with ⟨view, replayed, unique, lists⟩
  refine ⟨view, replayed, unique, fun id => (lists id).trans ?_⟩
  apply exists_congr
  intro p
  rw [mem_others, and_assoc]

/-- Two join and the first moves to another room and back. -/
theorem roster_agreement_moved :
    ∃ view, replay (framesTo 2 (machine.outputs
      [.join "room" 1, .join "room" 2, .join "side" 1, .join "room" 1]).flatten) = some view ∧
      4 ∈ view := by
  rcases roster_agreement [.join "room" 1, .join "room" 2, .join "side" 1, .join "room" 1]
    (by decide) 2 "room" rfl with ⟨view, replayed, _, lists⟩
  exact ⟨view, replayed, (lists 4).mpr ⟨{ id := 4, conn := 1 }, by decide, by decide, by decide⟩⟩

/-- A newcomer whose id is the other participant's is not told of it. -/
theorem replay_rejoining {count : Nat} (sameId : BitVec.ofNat 64 (count + 2) = 1) :
    replay (framesTo 2 (machine.outputs (rejoining (count + 1))).flatten) = some [] := by
  rcases (step_rejoining count).2 with ⟨left, sent⟩
  rw [sent, sameId, framesTo_append, framesTo_append, framesTo_announce (by simp), replay_append,
    List.foldl_append]
  rfl

/-- The id counter has gone round once: the last newcomer takes the one other
participant for itself and is not told of it. -/
theorem roster_lost_after_wrap :
    replay (framesTo 2 (machine.outputs (rejoining (2 ^ 64))).flatten) = some [] ∧
      (machine.run (rejoining (2 ^ 64))).connRoom.lookup 2 = some "room" ∧
      ∃ p ∈ (machine.run (rejoining (2 ^ 64))).roster "room", p.conn ≠ 2 := by
  have roster := roster_rejoining (Nat.one_le_two_pow : 1 ≤ 2 ^ 64)
  refine ⟨replay_rejoining (by decide : BitVec.ofNat 64 (2 ^ 64 - 1 + 2) = 1), ?_,
    { id := 1, conn := 1 }, ?_, by decide⟩
  · rw [(consistent_run _).bound, roster]
    exact List.mem_cons_of_mem _ List.mem_cons_self
  · rw [roster]
    exact List.mem_cons_self

end RoomManager

end Vela
