import Vela.Sfu.SFUServer

/-! # The registry of rooms

A room is created before its first `add` can fail and reclaimed after its last
`remove` has succeeded. So whatever the calls, a registered room has members,
never more than the limit, and a call that fails leaves every room alone. -/

namespace Vela

open Foundation UnorderedMap

namespace Room

variable {Sink : Type} {room : Room Sink} {id : ParticipantId}

/-! ## What a registered room looks like -/

/-- Every member is filed under its own id. -/
def FiledById (room : Room Sink) : Prop :=
  ∀ pid participant, room.find pid = some participant → participant.id = pid

theorem FiledById.create (name : String) (hasKeyframeRequest : Bool) :
    FiledById (Room.create name hasKeyframeRequest : Room Sink) :=
  fun _ _ found => nomatch found

theorem FiledById.modify (filed : FiledById room)
    {transform : ParticipantId → Participant Sink → Participant Sink}
    (keepsId : ∀ pid participant, (transform pid participant).id = participant.id) :
    FiledById (room.modify transform) := by
  intro pid participant found
  rw [find_modify] at found
  rcases Option.map_eq_some_iff.mp found with ⟨before, foundBefore, rfl⟩
  rw [keepsId]
  exact filed pid before foundBefore

theorem FiledById.erase (filed : FiledById room) : FiledById (room.erase id) := by
  intro pid participant found
  rw [find_erase] at found
  split at found
  · cases found
  · exact filed pid participant found

theorem FiledById.add (filed : FiledById room) {sink : Option Sink} {added : Room Sink}
    {requests : List ParticipantId} (success : room.add id sink = .ok (added, requests)) :
    FiledById added := by
  intro pid participant found
  rw [(find_of_add success).2.2] at found
  split at found
  · rename_i same
    cases found
    exact same.symm
  · exact filed pid participant found

theorem FiledById.recomputeTargetsLocked (filed : FiledById room) :
    FiledById room.recomputeTargetsLocked :=
  filed.modify fun _ _ => rfl

theorem FiledById.remove (filed : FiledById room) {removed : Room Sink}
    (success : room.remove id = .ok removed) : FiledById removed := by
  unfold Room.remove at success
  split at success
  · cases success
    exact filed.erase.recomputeTargetsLocked
  · cases success

theorem FiledById.onRemb (filed : FiledById room) (bitrateBps : BitVec 32) :
    FiledById (room.onRemb id bitrateBps) := by
  unfold Room.onRemb
  split
  · apply FiledById.recomputeTargetsLocked
    apply filed.modify
    intro pid participant
    split <;> rfl
  · exact filed

theorem FiledById.forward (filed : FiledById room) (packet : RtpPacket) :
    FiledById (room.forward id packet).1 := by
  unfold Room.forward
  split
  · apply filed.modify
    intro pid participant
    split <;> rfl
  · exact filed

/-- The ids of a room's members are pairwise distinct. -/
theorem FiledById.nodup_ids (filed : FiledById room) :
    ((pairs room.participants).map fun pair => pair.2.id).Nodup := by
  have sameIds : (pairs room.participants).map (fun pair => pair.2.id) =
      (pairs room.participants).map Prod.fst := by
    apply List.map_congr_left
    rintro ⟨pid, participant⟩ member
    exact filed pid participant (mem_pairs.mp member)
  rw [sameIds]
  exact nodup_fst_pairs

/-- What every call keeps of a room's configuration. -/
def SameSettings (before after : Room Sink) : Prop :=
  after.hasKeyframeRequest = before.hasKeyframeRequest ∧
    after.maxParticipants = before.maxParticipants

theorem SameSettings.refl (room : Room Sink) : SameSettings room room := ⟨rfl, rfl⟩

theorem sameSettings_add {sink : Option Sink} {added : Room Sink} {requests : List ParticipantId}
    (success : room.add id sink = .ok (added, requests)) : SameSettings room added := by
  unfold add at success
  split at success
  · cases success
  · split at success
    · cases success
    · cases success
      exact ⟨rfl, rfl⟩

theorem sameSettings_remove {removed : Room Sink} (success : room.remove id = .ok removed) :
    SameSettings room removed := by
  unfold remove at success
  split at success
  · cases success
    exact ⟨rfl, rfl⟩
  · cases success

theorem sameSettings_onRemb (bitrateBps : BitVec 32) :
    SameSettings room (room.onRemb id bitrateBps) := by
  unfold onRemb
  split
  · exact ⟨rfl, rfl⟩
  · exact .refl room

theorem sameSettings_forward (packet : RtpPacket) :
    SameSettings room (room.forward id packet).1 := by
  unfold forward
  split
  · exact ⟨rfl, rfl⟩
  · exact .refl room

theorem one_le_size (member : (room.find id).isSome) : 1 ≤ room.size := by
  apply Nat.one_le_iff_ne_zero.mpr
  intro empty
  rw [size_eq_zero.mp empty id] at member
  cases member

theorem exists_member_of_size (occupied : 1 ≤ room.size) : ∃ id, (room.find id).isSome := by
  by_contra nobody
  have absent : ∀ id, room.find id = none := by
    intro id
    cases found : room.find id with
    | none => rfl
    | some participant => exact absurd ⟨id, by rw [found]; rfl⟩ nobody
  rw [size_eq_zero.mpr absent] at occupied
  exact Nat.not_succ_le_zero 0 occupied

/-- An `add` fails on a member's id and in a full room. -/
theorem add_eq_error_iff {sink : Option Sink} :
    (∃ error, room.add id sink = .error error) ↔
      (room.find id).isSome ∨ room.maxParticipants ≤ room.size := by
  unfold add
  have memberIff : id ∈ room.participants ↔ (room.find id).isSome := by
    rw [mem_iff_find, Option.isSome_iff_exists]
  by_cases member : id ∈ room.participants
  · rw [if_pos member]
    exact ⟨fun _ => Or.inl (memberIff.mp member), fun _ => ⟨_, rfl⟩⟩
  · rw [if_neg member]
    by_cases full : UnorderedMap.size room.participants ≥ room.maxParticipants
    · rw [dif_pos full]
      exact ⟨fun _ => Or.inr full, fun _ => ⟨_, rfl⟩⟩
    · rw [dif_neg full]
      constructor
      · rintro ⟨error, failed⟩
        cases failed
      · rintro (inside | tooMany)
        · exact absurd (memberIff.mpr inside) member
        · exact absurd tooMany full

/-! ## Keyframe requests -/

theorem mem_existingVideoSenders :
    id ∈ room.existingVideoSenders ↔
      ∃ participant, room.find id = some participant ∧ participant.videoSsrc ≠ 0 := by
  rw [existingVideoSenders, List.mem_filterMap]
  constructor
  · rintro ⟨⟨pid, participant⟩, member, selected⟩
    simp only at selected
    split at selected
    · rename_i video
      cases selected
      exact ⟨participant, mem_pairs.mp member, by simpa [Participant.hasVideo] using video⟩
    · cases selected
  · rintro ⟨participant, found, video⟩
    refine ⟨(id, participant), mem_pairs.mpr found, ?_⟩
    simp only
    rw [if_pos]
    simpa [Participant.hasVideo] using video

theorem existingVideoSenders_eq :
    room.existingVideoSenders =
      ((pairs room.participants).filter fun pair => pair.2.hasVideo).map Prod.fst := by
  rw [existingVideoSenders]
  induction pairs room.participants with
  | nil => rfl
  | cons pair rest induction =>
      cases video : pair.2.hasVideo with
      | true => simp [video, induction]
      | false => simp [video, induction]

theorem nodup_existingVideoSenders : room.existingVideoSenders.Nodup := by
  rw [existingVideoSenders_eq]
  exact nodup_fst_pairs.sublist (List.filter_sublist.map Prod.fst)

/-- A room that the server may keep. -/
structure Registered (room : Room Sink) : Prop where
  limit : room.maxParticipants = kMaxParticipants
  occupied : 1 ≤ room.size
  filed : FiledById room

theorem Registered.after {after : Room Sink} (registered : Registered room)
    (settings : SameSettings room after) (occupied : 1 ≤ after.size) (filed : FiledById after) :
    Registered after where
  limit := settings.2.trans registered.limit
  occupied := occupied
  filed := filed

end Room

namespace SFUServer

variable {Sink : Type} {server : SFUServer Sink} {roomId : String} {participantId : ParticipantId}

/-! ## What the calls do to the registry -/

/-- Every registered room may be kept and asks for keyframes as the server does. -/
def WellFormed (server : SFUServer Sink) : Prop :=
  ∀ roomId room, server.findRoom roomId = some room →
    room.Registered ∧ room.hasKeyframeRequest = server.hasKeyframeRequest

theorem WellFormed.create (hasKeyframeRequest : Bool) :
    WellFormed (SFUServer.create hasKeyframeRequest : SFUServer Sink) :=
  fun _ _ found => nomatch found

theorem WellFormed.setRoom (wellFormed : WellFormed server) {room : Room Sink}
    (registered : room.Registered)
    (settings : room.hasKeyframeRequest = server.hasKeyframeRequest) :
    WellFormed (server.setRoom room) := by
  intro other found isFound
  rw [findRoom_setRoom] at isFound
  split at isFound
  · cases isFound
    exact ⟨registered, settings⟩
  · exact wellFormed other found isFound

/-- Replacing a registered room by what a call made of it. -/
theorem WellFormed.replace (wellFormed : WellFormed server) {room after : Room Sink}
    (found : server.findRoom roomId = some room) (settings : Room.SameSettings room after)
    (occupied : 1 ≤ after.size) (filed : after.FiledById) : WellFormed (server.setRoom after) := by
  rcases wellFormed roomId room found with ⟨registered, sameCallback⟩
  exact wellFormed.setRoom (registered.after settings occupied filed)
    (settings.1.trans sameCallback)

theorem hasKeyframeRequest_findOrCreateRoom (server : SFUServer Sink) (roomId : String) :
    (server.findOrCreateRoom roomId).1.hasKeyframeRequest = server.hasKeyframeRequest := by
  rw [findOrCreateRoom]
  split <;> rfl

/-- A failed `addParticipant` leaves the server as it was: only a room that was
there before can refuse a newcomer. -/
theorem addParticipant_error {sink : Option Sink} {error : Error} (wellFormed : WellFormed server)
    (failed : (server.addParticipant roomId participantId sink).2.status = .error error) :
    (server.addParticipant roomId participantId sink).1 = server ∧
      (server.addParticipant roomId participantId sink).2.keyframeRequests = [] ∧
      ∃ room, server.findRoom roomId = some room ∧
        ((room.find participantId).isSome ∨ Room.kMaxParticipants ≤ room.size) := by
  rw [addParticipant, findOrCreateRoom] at failed ⊢
  cases found : server.findRoom roomId with
  | none =>
      simp only [found] at failed
      have refused : ∃ error, (Room.create roomId server.hasKeyframeRequest : Room Sink).add
          participantId sink = .error error := by
        cases outcome : (Room.create roomId server.hasKeyframeRequest : Room Sink).add
            participantId sink with
        | error error => exact ⟨error, rfl⟩
        | ok result =>
            rw [outcome] at failed
            cases failed
      rcases Room.add_eq_error_iff.mp refused with inside | full
      · cases inside
      · exact absurd full (Nat.not_succ_le_zero 7)
  | some room =>
      simp only [found] at failed ⊢
      cases outcome : room.add participantId sink with
      | ok result =>
          rw [outcome] at failed
          cases failed
      | error error =>
          refine ⟨rfl, rfl, room, rfl, ?_⟩
          rw [← (wellFormed roomId room found).1.limit]
          exact Room.add_eq_error_iff.mp ⟨error, outcome⟩

/-- A successful `addParticipant` registers the room that `Room::add` gave back,
and makes its requests. -/
theorem addParticipant_ok {sink : Option Sink} (wellFormed : WellFormed server)
    (success : (server.addParticipant roomId participantId sink).2.status = .ok ()) :
    ∃ (room added : Room Sink) (requests : List ParticipantId),
      room.add participantId sink = .ok (added, requests) ∧
      room.id = roomId ∧ room.maxParticipants = Room.kMaxParticipants ∧
      room.hasKeyframeRequest = server.hasKeyframeRequest ∧ room.FiledById ∧
      (∀ pid, room.find pid = server.participant roomId pid) ∧
      (server.addParticipant roomId participantId sink).2.keyframeRequests = requests ∧
      (server.addParticipant roomId participantId sink).1.hasKeyframeRequest =
        server.hasKeyframeRequest ∧
      ∀ other, (server.addParticipant roomId participantId sink).1.findRoom other =
        if other = roomId then some added else server.findRoom other := by
  rcases server.findOrCreateRoom_spec roomId with ⟨roomName, roomMembers, _⟩
  have settings : (server.findOrCreateRoom roomId).2.maxParticipants = Room.kMaxParticipants ∧
      (server.findOrCreateRoom roomId).2.hasKeyframeRequest = server.hasKeyframeRequest ∧
      (server.findOrCreateRoom roomId).2.FiledById ∧
      ∀ other, other ≠ roomId →
        (server.findOrCreateRoom roomId).1.findRoom other = server.findRoom other := by
    rw [findOrCreateRoom]
    cases found : server.findRoom roomId with
    | none =>
        refine ⟨rfl, rfl, Room.FiledById.create roomId _, fun other different => ?_⟩
        rw [findRoom_setRoom]
        exact if_neg different
    | some room =>
        rcases wellFormed roomId room found with ⟨registered, sameCallback⟩
        exact ⟨registered.limit, sameCallback, registered.filed, fun _ _ => rfl⟩
  have sameCallback := hasKeyframeRequest_findOrCreateRoom server roomId
  rw [addParticipant] at success ⊢
  simp only at success ⊢
  cases outcome : (server.findOrCreateRoom roomId).2.add participantId sink with
  | error error =>
      rw [outcome] at success
      cases success
  | ok result =>
      rcases result with ⟨added, requests⟩
      refine ⟨_, added, requests, outcome, roomName, settings.1, settings.2.1, settings.2.2.1,
        roomMembers, rfl, sameCallback, fun other => ?_⟩
      simp only [findRoom_setRoom, (Room.find_of_add outcome).2.1, roomName]
      split
      · rfl
      · rename_i different
        exact settings.2.2.2 other different

/-- An `addParticipant` succeeds exactly for a newcomer to a room that is not full. -/
theorem addParticipant_ok_iff {sink : Option Sink} (wellFormed : WellFormed server) :
    (server.addParticipant roomId participantId sink).2.status = .ok () ↔
      server.participant roomId participantId = none ∧
        ∀ room, server.findRoom roomId = some room → room.size < Room.kMaxParticipants := by
  constructor
  · intro success
    refine ⟨(participant_addParticipant_ok success).1, fun room found => ?_⟩
    by_contra full
    rw [← (wellFormed roomId room found).1.limit, Nat.not_lt] at full
    have refused : ∃ error, room.add participantId sink = .error error :=
      Room.add_eq_error_iff.mpr (Or.inr full)
    rcases refused with ⟨error, outcome⟩
    simp only [addParticipant, findOrCreateRoom, found, outcome] at success
    cases success
  · rintro ⟨absent, vacant⟩
    rcases SfuResponse.status_cases (server.addParticipant roomId participantId sink).2 with
      ⟨success, _⟩ | ⟨⟨error, failed⟩, _⟩
    · exact success
    · rcases (addParticipant_error wellFormed failed).2.2 with ⟨room, found, inside | full⟩
      · rw [participant_of_findRoom found] at absent
        rw [absent] at inside
        cases inside
      · exact absurd (vacant room found) (Nat.not_lt.mpr full)

theorem roomWithout_cases (room : Room Sink) (participantId : ParticipantId) :
    (∃ removed, room.remove participantId = .ok removed ∧
      roomWithout room participantId = (removed, .ok ())) ∨
    ∃ error, roomWithout room participantId = (room, .error error) := by
  rw [roomWithout]
  cases outcome : room.remove participantId with
  | ok removed => exact Or.inl ⟨removed, rfl, rfl⟩
  | error error => exact Or.inr ⟨error, rfl⟩

/-- A failed `removeParticipant` leaves every room as it was. -/
theorem removeParticipant_error {error : Error} (wellFormed : WellFormed server)
    (failed : (server.removeParticipant roomId participantId).2.status = .error error) :
    ∀ other, (server.removeParticipant roomId participantId).1.findRoom other =
      server.findRoom other := by
  intro other
  rw [removeParticipant] at failed ⊢
  cases found : server.findRoom roomId with
  | none => rfl
  | some room =>
      simp only [found] at failed ⊢
      rcases roomWithout_cases room participantId with ⟨removed, _, outcome⟩ | ⟨error, outcome⟩
      · rw [outcome] at failed
        simp only at failed
        split at failed <;> cases failed
      · have occupied := (wellFormed roomId room found).1.occupied
        rw [outcome]
        simp only
        rw [if_neg (Nat.ne_of_gt occupied), findRoom_setRoom, id_of_findRoom found]
        split
        · rename_i same
          rw [same, found]
        · rfl

theorem keyframeRequests_removeParticipant :
    (server.removeParticipant roomId participantId).2.keyframeRequests = [] := by
  rw [removeParticipant]
  split
  · rfl
  · simp only
    split <;> rfl

/-! ## Every call keeps the registry well formed -/

theorem WellFormed.addParticipant (wellFormed : WellFormed server) (sink : Option Sink) :
    WellFormed (server.addParticipant roomId participantId sink).1 := by
  rcases SfuResponse.status_cases (server.addParticipant roomId participantId sink).2 with
    ⟨success, _⟩ | ⟨⟨error, failed⟩, _⟩
  · rcases addParticipant_ok wellFormed success with
      ⟨room, added, requests, outcome, _, limit, callback, filed, _, _, sameCallback, registry⟩
    have settings := Room.sameSettings_add outcome
    intro other found isFound
    rw [registry] at isFound
    rw [sameCallback]
    split at isFound
    · cases isFound
      have member : (added.find participantId).isSome := by
        rw [(Room.find_of_add outcome).2.2, if_pos rfl]
        rfl
      exact ⟨⟨settings.2.trans limit, Room.one_le_size member, filed.add outcome⟩,
        settings.1.trans callback⟩
    · exact wellFormed other found isFound
  · rw [(addParticipant_error wellFormed failed).1]
    exact wellFormed

theorem WellFormed.removeParticipant (wellFormed : WellFormed server) :
    WellFormed (server.removeParticipant roomId participantId).1 := by
  rw [SFUServer.removeParticipant]
  cases found : server.findRoom roomId with
  | none => exact wellFormed
  | some room =>
      simp only
      split
      · intro other kept isFound
        rw [findRoom_eraseRoom] at isFound
        split at isFound
        · cases isFound
        · exact wellFormed other kept isFound
      · rename_i occupied
        rcases roomWithout_cases room participantId with
          ⟨removed, success, outcome⟩ | ⟨error, outcome⟩
        · rw [outcome] at occupied ⊢
          exact wellFormed.replace found (Room.sameSettings_remove success)
            (Nat.one_le_iff_ne_zero.mpr occupied)
            ((wellFormed roomId room found).1.filed.remove success)
        · rw [outcome]
          exact wellFormed.replace found (.refl room) (wellFormed roomId room found).1.occupied
            (wellFormed roomId room found).1.filed

/-- A room stays registered as long as nobody leaves it. -/
theorem WellFormed.keepMembers (wellFormed : WellFormed server) {room after : Room Sink}
    (found : server.findRoom roomId = some room) (settings : Room.SameSettings room after)
    (stays : ∀ id, (room.find id).isSome → (after.find id).isSome) (filed : after.FiledById) :
    WellFormed (server.setRoom after) := by
  rcases Room.exists_member_of_size (wellFormed roomId room found).1.occupied with
    ⟨someone, member⟩
  exact wellFormed.replace found settings (Room.one_le_size (stays someone member)) filed

theorem WellFormed.routePacket (wellFormed : WellFormed server) (packet : RtpPacket) :
    WellFormed (server.routePacket roomId participantId packet).1 := by
  rw [SFUServer.routePacket]
  cases found : server.findRoom roomId with
  | none => exact wellFormed
  | some room =>
      have stays : ∀ id, (room.find id).isSome →
          ((room.call (.forward participantId packet)).1.find id).isSome :=
        fun _ member => Room.isSome_call (fun same => by cases same) member
      exact wellFormed.keepMembers found (Room.sameSettings_forward packet) stays
        ((wellFormed roomId room found).1.filed.forward packet)

theorem WellFormed.onRemb (wellFormed : WellFormed server) (bitrateBps : BitVec 32) :
    WellFormed (server.onRemb roomId participantId bitrateBps) := by
  rw [SFUServer.onRemb]
  cases found : server.findRoom roomId with
  | none => exact wellFormed
  | some room =>
      have stays : ∀ id, (room.find id).isSome →
          ((room.call (.onRemb participantId bitrateBps)).1.find id).isSome :=
        fun _ member => Room.isSome_call (fun same => by cases same) member
      exact wellFormed.keepMembers found (Room.sameSettings_onRemb bitrateBps) stays
        ((wellFormed roomId room found).1.filed.onRemb bitrateBps)

theorem WellFormed.modifyParticipant (wellFormed : WellFormed server)
    {transform : Participant Sink → Participant Sink} (keepsId : ∀ p, (transform p).id = p.id) :
    WellFormed (server.modifyParticipant roomId participantId transform) := by
  rw [SFUServer.modifyParticipant]
  cases found : server.findRoom roomId with
  | none => exact wellFormed
  | some room =>
      apply wellFormed.keepMembers found
      · exact ⟨rfl, rfl⟩
      · intro id member
        rw [Room.find_modify, Option.isSome_map]
        exact member
      · apply (wellFormed roomId room found).1.filed.modify
        intro pid participant
        split
        · exact keepsId participant
        · rfl

theorem WellFormed.call (wellFormed : WellFormed server) (event : Event Sink) :
    WellFormed (server.call event).1 := by
  cases event with
  | addParticipant roomId participantId sink => exact wellFormed.addParticipant sink
  | removeParticipant roomId participantId => exact wellFormed.removeParticipant
  | routePacket roomId senderId packet => exact wellFormed.routePacket packet
  | onRemb roomId participantId bitrateBps => exact wellFormed.onRemb bitrateBps
  | setAudioSsrc roomId participantId ssrc => exact wellFormed.modifyParticipant fun _ => rfl
  | setVideoSsrc roomId participantId ssrc => exact wellFormed.modifyParticipant fun _ => rfl

theorem wellFormed_run (hasKeyframeRequest : Bool) (events : List (Event Sink)) :
    WellFormed ((machine hasKeyframeRequest).run events) :=
  Machine.invariant (WellFormed.create hasKeyframeRequest)
    (fun _ event wellFormed => wellFormed.call event) events

theorem hasKeyframeRequest_call (event : Event Sink) :
    (server.call event).1.hasKeyframeRequest = server.hasKeyframeRequest := by
  have created := hasKeyframeRequest_findOrCreateRoom server
  cases event with
  | addParticipant roomId participantId sink =>
      simp only [call, SFUServer.addParticipant]
      split
      · exact created roomId
      · exact created roomId
  | removeParticipant roomId participantId =>
      simp only [call, SFUServer.removeParticipant]
      split
      · rfl
      · split <;> rfl
  | routePacket roomId senderId packet =>
      simp only [call, SFUServer.routePacket]
      split <;> rfl
  | onRemb roomId participantId bitrateBps =>
      simp only [call, SFUServer.onRemb]
      split <;> rfl
  | setAudioSsrc roomId participantId ssrc =>
      simp only [call, SFUServer.modifyParticipant]
      split <;> rfl
  | setVideoSsrc roomId participantId ssrc =>
      simp only [call, SFUServer.modifyParticipant]
      split <;> rfl

theorem hasKeyframeRequest_run (hasKeyframeRequest : Bool) (events : List (Event Sink)) :
    ((machine hasKeyframeRequest).run events).hasKeyframeRequest = hasKeyframeRequest := by
  induction events using List.reverseRecOn with
  | nil => rfl
  | append_singleton past event induction =>
      rw [Machine.run_snoc]
      exact (hasKeyframeRequest_call event).trans induction

/-- A call that fails changes no room and asks nobody for a keyframe. -/
theorem call_error {event : Event Sink} {error : Error} (wellFormed : WellFormed server)
    (failed : (server.call event).2.status = .error error) :
    (∀ roomId, (server.call event).1.findRoom roomId = server.findRoom roomId) ∧
      (server.call event).2.keyframeRequests = [] := by
  cases event with
  | addParticipant roomId participantId sink =>
      rcases addParticipant_error wellFormed failed with ⟨same, noRequests, _⟩
      exact ⟨fun other => congrArg (fun after => after.findRoom other) same, noRequests⟩
  | removeParticipant roomId participantId =>
      exact ⟨removeParticipant_error wellFormed failed, keyframeRequests_removeParticipant⟩
  | routePacket roomId senderId packet =>
      simp only [call, routePacket] at failed
      split at failed <;> cases failed
  | onRemb roomId participantId bitrateBps => cases failed
  | setAudioSsrc roomId participantId ssrc => cases failed
  | setVideoSsrc roomId participantId ssrc => cases failed

/-- The members a newcomer's arrival is announced to, each once. -/
theorem keyframeRequests_addParticipant {sink : Option Sink} (wellFormed : WellFormed server)
    (success : (server.addParticipant roomId participantId sink).2.status = .ok ())
    (asked : ParticipantId) :
    (server.addParticipant roomId participantId sink).2.keyframeRequests.count asked =
      if server.hasKeyframeRequest ∧ ∃ participant,
        server.participant roomId asked = some participant ∧ participant.videoSsrc ≠ 0
      then 1 else 0 := by
  rcases addParticipant_ok wellFormed success with
    ⟨room, added, requests, outcome, _, _, callback, _, members, sameRequests, _, _⟩
  have requested : requests =
    if room.hasKeyframeRequest then room.existingVideoSenders else [] := by
    unfold Room.add at outcome
    split at outcome
    · cases outcome
    · split at outcome
      · cases outcome
      · cases outcome
        rfl
  rw [sameRequests, requested, callback, ← members asked]
  cases server.hasKeyframeRequest with
  | false => simp
  | true =>
      simp only [if_true, true_and]
      by_cases member : asked ∈ room.existingVideoSenders
      · rw [if_pos (Room.mem_existingVideoSenders.mp member),
          List.count_eq_one_of_mem Room.nodup_existingVideoSenders member]
      · rw [if_neg fun video => member (Room.mem_existingVideoSenders.mpr video),
          List.count_eq_zero_of_not_mem member]

/-- After any calls, every registered room has one to eight members with distinct
ids; a call that fails leaves every room as it was and asks nobody for a
keyframe; and a successful `addParticipant` asks each member with video once,
through the callback if one is set, and nobody else. -/
theorem registry_sound (hasKeyframeRequest : Bool) (events : List (Event Sink)) :
    (∀ roomId room, ((machine hasKeyframeRequest).run events).findRoom roomId = some room →
      1 ≤ room.size ∧ room.size ≤ 8 ∧
        ((pairs room.participants).map fun pair => pair.2.id).Nodup) ∧
    (∀ event error,
      (((machine hasKeyframeRequest).run events).call event).2.status = .error error →
      (∀ roomId, (((machine hasKeyframeRequest).run events).call event).1.findRoom roomId =
        ((machine hasKeyframeRequest).run events).findRoom roomId) ∧
      (((machine hasKeyframeRequest).run events).call event).2.keyframeRequests = []) ∧
    ∀ roomId participantId sink,
      (((machine hasKeyframeRequest).run events).addParticipant roomId participantId
        sink).2.status = .ok () →
      ∀ asked, (((machine hasKeyframeRequest).run events).addParticipant roomId participantId
          sink).2.keyframeRequests.count asked =
        if hasKeyframeRequest ∧ ∃ participant,
          ((machine hasKeyframeRequest).run events).participant roomId asked = some participant ∧
            participant.videoSsrc ≠ 0
        then 1 else 0 := by
  have wellFormed := wellFormed_run hasKeyframeRequest events
  have callback : ((machine hasKeyframeRequest).run events).hasKeyframeRequest =
      hasKeyframeRequest := hasKeyframeRequest_run hasKeyframeRequest events
  refine ⟨fun roomId room found => ?_, fun event error failed => call_error wellFormed failed,
    fun roomId participantId sink success asked => ?_⟩
  · have registered := (wellFormed roomId room found).1
    refine ⟨registered.occupied, ?_, registered.filed.nodup_ids⟩
    have bounded := room.withinLimit
    rw [registered.limit] at bounded
    exact bounded
  · rw [keyframeRequests_addParticipant wellFormed success asked, callback]

/-- A member with video is asked when a second one arrives; adding it again fails. -/
theorem registry_sound_second_member :
    (((machine true).run
      [.addParticipant "room" "a" (some 0), .setVideoSsrc "room" "a" 7]).addParticipant
        "room" "b" (some 1)).2.keyframeRequests.count "a" = 1 ∧
    (((machine true).run [.addParticipant "room" "a" (some 0)]).call
      (.addParticipant "room" "a" (some 1))).2.keyframeRequests = [] := by
  have asks := (registry_sound true
    [.addParticipant "room" "a" (some 0), .setVideoSsrc "room" "a" 7]).2.2 "room" "b" (some 1)
      (by rfl) "a"
  refine ⟨asks.trans (if_pos ⟨rfl, _, rfl, by decide⟩), ?_⟩
  exact ((registry_sound true [.addParticipant "room" "a" (some 0)]).2.1
    (.addParticipant "room" "a" (some 1)) .invalidArgument (by rfl)).2

end SFUServer

end Vela
