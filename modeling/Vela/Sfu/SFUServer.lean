import Vela.Foundation.Machine
import Vela.Sfu.Room

/-! # The SFU server

The registry of rooms and the calls a transport layer makes. Rooms appear on
first join and go with their last participant. Here every call runs to its end
before the next begins. -/

namespace Vela

open Foundation UnorderedMap

structure SFUServer (Sink : Type) where
  hasKeyframeRequest : Bool
  rooms : UnorderedMap String (Room Sink)
  named : ∀ roomId room, rooms.lookup roomId = some room → room.id = roomId
  deriving DecidableEq

namespace SFUServer

variable {Sink : Type}

def create (hasKeyframeRequest : Bool := false) : SFUServer Sink where
  hasKeyframeRequest
  rooms := ∅
  named := fun _ _ found => nomatch found

def findRoom (server : SFUServer Sink) (roomId : String) : Option (Room Sink) :=
  server.rooms.lookup roomId

/-- Registers the room under its own name, in place of any room of that name. -/
def setRoom (server : SFUServer Sink) (room : Room Sink) : SFUServer Sink where
  hasKeyframeRequest := server.hasKeyframeRequest
  rooms := server.rooms.insert room.id room
  named := by
    intro roomId other found
    rw [lookup_insert_eq] at found
    split at found
    · rename_i same
      cases found
      exact same.symm
    · exact server.named roomId other found

def eraseRoom (server : SFUServer Sink) (roomId : String) : SFUServer Sink where
  hasKeyframeRequest := server.hasKeyframeRequest
  rooms := server.rooms.erase roomId
  named := by
    intro other room found
    rw [lookup_erase_eq] at found
    split at found
    · cases found
    · exact server.named other room found

/-- The registered room of that name, created if there is none, and the server
with it registered. -/
def findOrCreateRoom (server : SFUServer Sink) (roomId : String) : SFUServer Sink × Room Sink :=
  match server.findRoom roomId with
  | some room => (server, room)
  | none =>
      let room := Room.create roomId server.hasKeyframeRequest
      (server.setRoom room, room)

def addParticipant (server : SFUServer Sink) (roomId : String) (participantId : ParticipantId)
    (sink : Option Sink) : SFUServer Sink × SfuResponse Sink :=
  let (server, room) := server.findOrCreateRoom roomId
  match room.add participantId sink with
  | .ok (added, keyframeRequests) => (server.setRoom added, { keyframeRequests })
  | .error error => (server, { status := .error error })

/-- What is left of the room after a removal, and its status: a failed removal
leaves the room as it was. -/
def roomWithout (room : Room Sink) (participantId : ParticipantId) : Room Sink × Status :=
  match room.remove participantId with
  | .ok removed => (removed, .ok ())
  | .error error => (room, .error error)

def removeParticipant (server : SFUServer Sink) (roomId : String)
    (participantId : ParticipantId) : SFUServer Sink × SfuResponse Sink :=
  match server.findRoom roomId with
  | none => (server, { status := .error .notFound })
  | some room =>
      let (room, status) := roomWithout room participantId
      if room.size = 0 then (server.eraseRoom roomId, { status })
      else (server.setRoom room, { status })

def routePacket (server : SFUServer Sink) (roomId : String) (senderId : ParticipantId)
    (packet : RtpPacket) : SFUServer Sink × SfuResponse Sink :=
  match server.findRoom roomId with
  | some room =>
      let (forwarded, sinkCalls) := room.forward senderId packet
      (server.setRoom forwarded, { sinkCalls })
  | none => (server, {})

def onRemb (server : SFUServer Sink) (roomId : String) (participantId : ParticipantId)
    (bitrateBps : BitVec 32) : SFUServer Sink :=
  match server.findRoom roomId with
  | some room => server.setRoom (room.onRemb participantId bitrateBps)
  | none => server

def targetBitrate (server : SFUServer Sink) (roomId : String) (senderId : ParticipantId) :
    BitVec 32 :=
  match server.findRoom roomId with
  | some room => room.targetBitrate senderId
  | none => 0

def roomCount (server : SFUServer Sink) : Nat := size server.rooms

/-- The participant that the application reaches through its handle. -/
def participant (server : SFUServer Sink) (roomId : String) (participantId : ParticipantId) :
    Option (Participant Sink) :=
  (server.findRoom roomId).bind fun room => room.find participantId

/-- A write through the participant handle that `addParticipant` returned. -/
def modifyParticipant (server : SFUServer Sink) (roomId : String) (participantId : ParticipantId)
    (transform : Participant Sink → Participant Sink) : SFUServer Sink :=
  match server.findRoom roomId with
  | some room =>
      server.setRoom <| room.modify fun pid participant =>
        if pid = participantId then transform participant else participant
  | none => server

/-! ## Calls -/

inductive Event (Sink : Type) where
  | addParticipant (roomId : String) (participantId : ParticipantId) (sink : Option Sink)
  | removeParticipant (roomId : String) (participantId : ParticipantId)
  | routePacket (roomId : String) (senderId : ParticipantId) (packet : RtpPacket)
  | onRemb (roomId : String) (participantId : ParticipantId) (bitrateBps : BitVec 32)
  | setAudioSsrc (roomId : String) (participantId : ParticipantId) (ssrc : BitVec 32)
  | setVideoSsrc (roomId : String) (participantId : ParticipantId) (ssrc : BitVec 32)
  deriving DecidableEq

def call (server : SFUServer Sink) : Event Sink → SFUServer Sink × SfuResponse Sink
  | .addParticipant roomId participantId sink => server.addParticipant roomId participantId sink
  | .removeParticipant roomId participantId => server.removeParticipant roomId participantId
  | .routePacket roomId senderId packet => server.routePacket roomId senderId packet
  | .onRemb roomId participantId bitrateBps => (server.onRemb roomId participantId bitrateBps, {})
  | .setAudioSsrc roomId participantId ssrc =>
      (server.modifyParticipant roomId participantId fun p => p.setAudioSsrc ssrc, {})
  | .setVideoSsrc roomId participantId ssrc =>
      (server.modifyParticipant roomId participantId fun p => p.setVideoSsrc ssrc, {})

def machine (hasKeyframeRequest : Bool) :
    Machine (SFUServer Sink) (Event Sink) (SfuResponse Sink) where
  initial := create hasKeyframeRequest
  step := call

/-! ## What each call does to the participants -/

variable {server : SFUServer Sink} {roomId other : String} {participantId pid : ParticipantId}

@[simp] theorem findRoom_setRoom (room : Room Sink) :
    (server.setRoom room).findRoom roomId =
      if roomId = room.id then some room else server.findRoom roomId :=
  lookup_insert_eq roomId room

@[simp] theorem findRoom_eraseRoom :
    (server.eraseRoom roomId).findRoom other =
      if other = roomId then none else server.findRoom other :=
  lookup_erase_eq other

theorem id_of_findRoom {room : Room Sink} (found : server.findRoom roomId = some room) :
    room.id = roomId :=
  server.named roomId room found

theorem participant_of_findRoom {room : Room Sink} (found : server.findRoom roomId = some room) :
    server.participant roomId participantId = room.find participantId := by
  rw [participant, found]
  rfl

theorem participant_of_noRoom (missing : server.findRoom roomId = none) :
    server.participant roomId participantId = none := by
  rw [participant, missing]
  rfl

theorem participant_setRoom (room : Room Sink) :
    (server.setRoom room).participant roomId participantId =
      if roomId = room.id then room.find participantId
      else server.participant roomId participantId := by
  rw [participant, participant, findRoom_setRoom]
  split <;> rfl

theorem participant_eraseRoom :
    (server.eraseRoom roomId).participant other participantId =
      if other = roomId then none else server.participant other participantId := by
  rw [participant, participant, findRoom_eraseRoom]
  split <;> rfl

/-- Creating a room on demand changes no membership. -/
theorem findOrCreateRoom_spec (server : SFUServer Sink) (roomId : String) :
    (server.findOrCreateRoom roomId).2.id = roomId ∧
      (∀ pid, (server.findOrCreateRoom roomId).2.find pid = server.participant roomId pid) ∧
      ∀ other pid, (server.findOrCreateRoom roomId).1.participant other pid =
        server.participant other pid := by
  rw [findOrCreateRoom]
  cases found : server.findRoom roomId with
  | some room =>
      exact ⟨id_of_findRoom found, fun pid => (participant_of_findRoom found).symm,
        fun _ _ => rfl⟩
  | none =>
      refine ⟨rfl, fun pid => (participant_of_noRoom found).symm, fun other pid => ?_⟩
      rw [participant_setRoom]
      split
      · rename_i same
        rw [same]
        exact (participant_of_noRoom found).symm
      · rfl

theorem participant_addParticipant_ok {sink : Option Sink}
    (success : (server.addParticipant roomId participantId sink).2.status = .ok ()) :
    server.participant roomId participantId = none ∧
      ∀ other pid, (server.addParticipant roomId participantId sink).1.participant other pid =
        if other = roomId ∧ pid = participantId then
          some { id := participantId, sink, needsKeyframe := true }
        else server.participant other pid := by
  rcases server.findOrCreateRoom_spec roomId with ⟨roomName, roomMembers, serverMembers⟩
  rw [addParticipant] at success ⊢
  simp only at success ⊢
  cases outcome : (server.findOrCreateRoom roomId).2.add participantId sink with
  | error error =>
      rw [outcome] at success
      cases success
  | ok result =>
      rcases result with ⟨added, requests⟩
      rcases Room.find_of_add outcome with ⟨unused, sameName, find_added⟩
      refine ⟨(roomMembers participantId).symm.trans unused, fun other pid => ?_⟩
      simp only [participant_setRoom, sameName, roomName, find_added, roomMembers, serverMembers]
      by_cases sameRoom : other = roomId
      · simp [sameRoom]
      · simp [sameRoom]

theorem participant_addParticipant_error {sink : Option Sink} {error : Error}
    (failed : (server.addParticipant roomId participantId sink).2.status = .error error) :
    ∀ other pid, (server.addParticipant roomId participantId sink).1.participant other pid =
      server.participant other pid := by
  rcases server.findOrCreateRoom_spec roomId with ⟨_, _, serverMembers⟩
  rw [addParticipant] at failed ⊢
  simp only at failed ⊢
  cases outcome : (server.findOrCreateRoom roomId).2.add participantId sink with
  | error error => exact serverMembers
  | ok result =>
      rw [outcome] at failed
      cases failed

/-- What forwarding reads and writes of a participant: its sink and the sequence
numbers sent to it. The control calls leave this alone. -/
def egress (server : SFUServer Sink) (roomId : String) (participantId : ParticipantId) :
    Option (Option Sink × UnorderedMap (BitVec 32) (BitVec 16)) :=
  (server.participant roomId participantId).map fun p => (p.sink, p.forwardedSeqs)

theorem egress_setRoom (room : Room Sink) :
    (server.setRoom room).egress roomId participantId =
      if roomId = room.id then (room.find participantId).map fun p => (p.sink, p.forwardedSeqs)
      else server.egress roomId participantId := by
  rw [egress, egress, participant_setRoom]
  split <;> rfl

theorem egress_of_findRoom {room : Room Sink} (found : server.findRoom roomId = some room) :
    server.egress roomId participantId =
      (room.find participantId).map fun p => (p.sink, p.forwardedSeqs) := by
  rw [egress, participant_of_findRoom found]

/-- Replacing a room by one whose members forward alike changes no egress. -/
theorem egress_setRoom_same {before after : Room Sink}
    (found : server.findRoom roomId = some before) (sameName : after.id = before.id)
    (sameEgress : ∀ pid, (after.find pid).map (fun p => (p.sink, p.forwardedSeqs)) =
      (before.find pid).map fun p => (p.sink, p.forwardedSeqs)) :
    (server.setRoom after).egress other pid = server.egress other pid := by
  rw [egress_setRoom, sameName, id_of_findRoom found]
  split
  · rename_i same
    rw [sameEgress, same, egress_of_findRoom found]
  · rfl

theorem egress_onRemb (bitrateBps : BitVec 32) :
    (server.onRemb roomId participantId bitrateBps).egress other pid =
      server.egress other pid := by
  rw [onRemb]
  cases found : server.findRoom roomId with
  | none => rfl
  | some room =>
      apply egress_setRoom_same found (Room.id_onRemb bitrateBps)
      intro id
      by_cases member : participantId ∈ room.participants
      · rw [Room.find_onRemb member, Option.map_map]
        apply congrArg (fun view => Option.map view (room.find id))
        funext p
        simp only [Function.comp_apply]
        split <;> rfl
      · rw [Room.onRemb, if_neg member]

theorem egress_modifyParticipant {transform : Participant Sink → Participant Sink}
    (keepsSink : ∀ p, (transform p).sink = p.sink)
    (keepsSeqs : ∀ p, (transform p).forwardedSeqs = p.forwardedSeqs) :
    (server.modifyParticipant roomId participantId transform).egress other pid =
      server.egress other pid := by
  rw [modifyParticipant]
  cases found : server.findRoom roomId with
  | none => rfl
  | some room =>
      apply egress_setRoom_same found (Room.id_modify _)
      intro id
      rw [Room.find_modify, Option.map_map]
      apply congrArg (fun view => Option.map view (room.find id))
      funext p
      simp only [Function.comp_apply]
      split <;> simp [keepsSink, keepsSeqs]

theorem egress_eraseRoom :
    (server.eraseRoom roomId).egress other pid =
      if other = roomId then none else server.egress other pid := by
  rw [egress, egress, participant_eraseRoom]
  split <;> rfl

theorem roomWithout_spec (room : Room Sink) (participantId : ParticipantId) :
    (roomWithout room participantId).1.id = room.id ∧
      ∀ pid, ((roomWithout room participantId).1.find pid).map
          (fun p => (p.sink, p.forwardedSeqs)) =
        if pid = participantId then none
        else (room.find pid).map fun p => (p.sink, p.forwardedSeqs) := by
  rw [roomWithout]
  cases outcome : room.remove participantId with
  | ok removed =>
      rcases Room.find_of_remove outcome with ⟨sameName, find_removed⟩
      refine ⟨sameName, fun pid => ?_⟩
      simp only [find_removed, Option.map_map]
      split <;> rfl
  | error error =>
      refine ⟨rfl, fun pid => ?_⟩
      simp only
      split
      · rename_i same
        rw [same, Room.remove_error outcome]
        rfl
      · rfl

/-- Leaving clears exactly the one membership. -/
theorem egress_removeParticipant :
    (server.removeParticipant roomId participantId).1.egress other pid =
      if other = roomId ∧ pid = participantId then none else server.egress other pid := by
  rw [removeParticipant]
  cases found : server.findRoom roomId with
  | none =>
      simp only
      split
      · rename_i here
        rw [here.1, egress, participant_of_noRoom found]
        rfl
      · rfl
  | some room =>
      rcases roomWithout_spec room participantId with ⟨sameName, sameEgress⟩
      have roomName := sameName.trans (id_of_findRoom found)
      simp only
      have here : (if other = roomId ∧ pid = participantId then none else server.egress other pid) =
          if other = roomId then ((roomWithout room participantId).1.find pid).map
            fun p => (p.sink, p.forwardedSeqs)
          else server.egress other pid := by
        rw [sameEgress]
        by_cases sameRoom : other = roomId
        · rw [sameRoom, egress_of_findRoom found]
          simp
        · simp [sameRoom]
      rw [here]
      split
      · rename_i empty
        rw [egress_eraseRoom, Room.size_eq_zero.mp empty]
        rfl
      · rw [egress_setRoom, roomName]

theorem egress_addParticipant_ok {sink : Option Sink}
    (success : (server.addParticipant roomId participantId sink).2.status = .ok ()) :
    (server.addParticipant roomId participantId sink).1.egress other pid =
      if other = roomId ∧ pid = participantId then some (sink, ∅) else server.egress other pid := by
  rw [egress, egress, (participant_addParticipant_ok success).2]
  split <;> rfl

theorem egress_addParticipant_error {sink : Option Sink} {error : Error}
    (failed : (server.addParticipant roomId participantId sink).2.status = .error error) :
    (server.addParticipant roomId participantId sink).1.egress other pid =
      server.egress other pid := by
  rw [egress, egress, participant_addParticipant_error failed]

theorem egress_isSome :
    (server.egress roomId participantId).isSome =
      (server.participant roomId participantId).isSome :=
  Option.isSome_map

/-- Routing touches the room's members other than the sender, if the sender is
a member itself. -/
theorem egress_routePacket (packet : RtpPacket) :
    (server.routePacket roomId participantId packet).1.egress other pid =
      if other = roomId ∧ pid ≠ participantId ∧ (server.egress roomId participantId).isSome then
        (server.egress other pid).map fun (sink, seqs) =>
          (sink, seqs.insert packet.ssrc packet.sequenceNumber)
      else server.egress other pid := by
  rw [routePacket]
  cases found : server.findRoom roomId with
  | none =>
      have absent : server.egress roomId participantId = none := by
        rw [egress, participant_of_noRoom found]
        rfl
      simp [absent]
  | some room =>
      by_cases member : participantId ∈ room.participants
      · have present : (server.egress roomId participantId).isSome := by
          rcases Room.mem_iff_find.mp member with ⟨p, foundMember⟩
          rw [egress_isSome, participant_of_findRoom found, foundMember]
          rfl
        simp only [present, and_true]
        rw [egress_setRoom, Room.id_forward, id_of_findRoom found]
        by_cases here : other = roomId
        · rw [if_pos here, Room.find_forward member, here, egress_of_findRoom found,
            Option.map_map, Option.map_map]
          by_cases echo : pid = participantId
          · simp [echo, Function.comp_def]
          · simp [echo, Function.comp_def, Participant.deliver]
        · simp [here]
      · have absent : server.egress roomId participantId = none := by
          rw [egress_of_findRoom found, Room.not_mem_iff_find.mp member]
          rfl
        simp only [Room.forward_absent (Room.not_mem_iff_find.mp member), absent]
        rw [egress_setRoom_same found rfl fun _ => rfl]
        simp

@[simp] theorem sinkCalls_addParticipant (sink : Option Sink) :
    (server.addParticipant roomId participantId sink).2.sinkCalls = [] := by
  rw [addParticipant]
  simp only
  split <;> rfl

@[simp] theorem sinkCalls_removeParticipant :
    (server.removeParticipant roomId participantId).2.sinkCalls = [] := by
  rw [removeParticipant]
  split
  · rfl
  · simp only
    split <;> rfl

/-- The calls on one member's sink while one packet is routed. -/
theorem calls_routePacket (packet : RtpPacket) (receiver : ParticipantId) :
    (server.routePacket roomId participantId packet).2.sinkCalls.filter
        (fun call => call.receiver = receiver) =
      if receiver ≠ participantId ∧ (server.egress roomId participantId).isSome then
        ((server.egress roomId receiver).bind Prod.fst).toList.map fun sink =>
          { room := roomId, receiver, sink, packet }
      else [] := by
  rw [routePacket]
  cases found : server.findRoom roomId with
  | none =>
      have absent : server.egress roomId participantId = none := by
        rw [egress, participant_of_noRoom found]
        rfl
      simp [absent]
  | some room =>
      simp only [egress_of_findRoom found, Option.isSome_map]
      by_cases member : participantId ∈ room.participants
      · rw [Room.calls_forward member, id_of_findRoom found]
        rcases Room.mem_iff_find.mp member with ⟨p, foundMember⟩
        simp only [foundMember, Option.isSome_some, and_true]
        by_cases echo : receiver = participantId
        · simp [echo]
        · simp only [ne_eq, not_false_eq_true, if_true, echo]
          cases room.find receiver <;> rfl
      · rw [Room.forward_absent (Room.not_mem_iff_find.mp member)]
        simp [Room.not_mem_iff_find.mp member]

end SFUServer

end Vela
