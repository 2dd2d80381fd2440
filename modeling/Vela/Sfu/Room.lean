import Vela.Sfu.Participant

/-! # Rooms

A conference session: its members by id and the forwarding rule. The member map
never outgrows the limit that `add` checks, so the limit is part of the type. -/

namespace Vela

open Foundation UnorderedMap

/-- One invocation of a member's sink. -/
structure SinkCall (Sink : Type) where
  room : String
  receiver : ParticipantId
  sink : Sink
  packet : RtpPacket
  deriving DecidableEq

/-- What a call into the SFU gives back: its status, the keyframe requests and the
sink calls it made. -/
structure SfuResponse (Sink : Type) where
  status : Status := .ok ()
  keyframeRequests : List ParticipantId := []
  sinkCalls : List (SinkCall Sink) := []

def SfuResponse.succeeded {Sink : Type} (response : SfuResponse Sink) : Bool :=
  match response.status with
  | .ok _ => true
  | .error _ => false

theorem SfuResponse.status_cases {Sink : Type} (response : SfuResponse Sink) :
    response.status = .ok () ∧ response.succeeded = true ∨
      (∃ error, response.status = .error error) ∧ response.succeeded = false := by
  rcases response with ⟨status, requests, calls⟩
  cases status with
  | ok => exact Or.inl ⟨rfl, rfl⟩
  | error error => exact Or.inr ⟨⟨error, rfl⟩, rfl⟩

structure Room (Sink : Type) where
  id : String
  hasKeyframeRequest : Bool
  maxParticipants : Nat
  participants : UnorderedMap ParticipantId (Participant Sink)
  withinLimit : size participants ≤ maxParticipants
  deriving DecidableEq

namespace Room

variable {Sink : Type}

def kMaxParticipants : Nat := 8

def create (id : String) (hasKeyframeRequest : Bool := false)
    (maxParticipants : Nat := kMaxParticipants) : Room Sink where
  id
  hasKeyframeRequest
  maxParticipants
  participants := ∅
  withinLimit := Nat.zero_le maxParticipants

def find (room : Room Sink) (id : ParticipantId) : Option (Participant Sink) :=
  room.participants.lookup id

def size (room : Room Sink) : Nat := UnorderedMap.size room.participants

/-- A write to members in place. -/
def modify (room : Room Sink)
    (transform : ParticipantId → Participant Sink → Participant Sink) : Room Sink where
  id := room.id
  hasKeyframeRequest := room.hasKeyframeRequest
  maxParticipants := room.maxParticipants
  participants := mapValues transform room.participants
  withinLimit := by
    rw [size_mapValues]
    exact room.withinLimit

def erase (room : Room Sink) (id : ParticipantId) : Room Sink where
  id := room.id
  hasKeyframeRequest := room.hasKeyframeRequest
  maxParticipants := room.maxParticipants
  participants := room.participants.erase id
  withinLimit := (size_erase_le id).trans room.withinLimit

def existingVideoSenders (room : Room Sink) : List ParticipantId :=
  (pairs room.participants).filterMap fun (pid, participant) =>
    if participant.hasVideo then some pid else none

/-- The room with the newcomer and the members asked for a keyframe. -/
def add (room : Room Sink) (id : ParticipantId) (sink : Option Sink) :
    Result (Room Sink × List ParticipantId) :=
  if id ∈ room.participants then .error .invalidArgument
  else if full : UnorderedMap.size room.participants ≥ room.maxParticipants then
    .error .resourceExhausted
  else
    let newcomer : Participant Sink := Participant.setNeedsKeyframe { id, sink } true
    .ok
      ({ id := room.id
         hasKeyframeRequest := room.hasKeyframeRequest
         maxParticipants := room.maxParticipants
         participants := room.participants.insert id newcomer
         withinLimit := (size_insert_le id newcomer).trans (Nat.lt_of_not_ge full) },
        if room.hasKeyframeRequest then room.existingVideoSenders else [])

/-- The loop over one sender's receivers: the least estimate seen and whether
there was any. -/
def minEstimate (senderId : ParticipantId) (receivers : List (ParticipantId × Participant Sink)) :
    BitVec 32 × Bool :=
  receivers.foldl
    (fun (least, any) (recvId, recv) =>
      if recvId = senderId then (least, any)
      else if recv.rembEstimate = 0 then (least, any)
      else (if recv.rembEstimate < least then recv.rembEstimate else least, true))
    (BitVec.allOnes 32, false)

def computeTarget (room : Room Sink) (senderId : ParticipantId) : BitVec 32 :=
  let (least, any) := minEstimate senderId (pairs room.participants)
  if any then least else 0

def recomputeTargetsLocked (room : Room Sink) : Room Sink :=
  room.modify fun senderId sender => sender.setTargetBitrate (room.computeTarget senderId)

def remove (room : Room Sink) (id : ParticipantId) : Result (Room Sink) :=
  if id ∈ room.participants then .ok (room.erase id).recomputeTargetsLocked
  else .error .notFound

/-- Every member but the sender gets the packet; nothing happens when the
sender has left. -/
def forward (room : Room Sink) (senderId : ParticipantId) (packet : RtpPacket) :
    Room Sink × List (SinkCall Sink) :=
  if senderId ∈ room.participants then
    (room.modify fun pid participant =>
        if pid = senderId then participant else (participant.deliver packet).1,
      (pairs room.participants).filterMap fun (pid, participant) =>
        if pid = senderId then none
        else (participant.deliver packet).2.map fun sink =>
          { room := room.id, receiver := pid, sink, packet })
  else (room, [])

def onRemb (room : Room Sink) (id : ParticipantId) (bitrateBps : BitVec 32) : Room Sink :=
  if id ∈ room.participants then
    recomputeTargetsLocked
      (room.modify fun pid participant =>
        if pid = id then participant.setRembEstimate bitrateBps else participant)
  else room

def targetBitrate (room : Room Sink) (senderId : ParticipantId) : BitVec 32 :=
  match room.find senderId with
  | some participant => participant.targetBitrate
  | none => 0

/-! ## Calls on a room -/

inductive Event (Sink : Type) where
  | add (id : ParticipantId) (sink : Option Sink)
  | remove (id : ParticipantId)
  | forward (senderId : ParticipantId) (packet : RtpPacket)
  | onRemb (id : ParticipantId) (bitrateBps : BitVec 32)

def call (room : Room Sink) : Event Sink → Room Sink × SfuResponse Sink
  | .add id sink =>
      match room.add id sink with
      | .ok (added, keyframeRequests) => (added, { keyframeRequests })
      | .error error => (room, { status := .error error })
  | .remove id =>
      match room.remove id with
      | .ok removed => (removed, {})
      | .error error => (room, { status := .error error })
  | .forward senderId packet =>
      let (forwarded, sinkCalls) := room.forward senderId packet
      (forwarded, { sinkCalls })
  | .onRemb id bitrateBps => (room.onRemb id bitrateBps, {})

/-! ## What each operation does to the members -/

variable {room : Room Sink} {id other : ParticipantId}

@[simp] theorem id_modify (transform : ParticipantId → Participant Sink → Participant Sink) :
    (room.modify transform).id = room.id := rfl

@[simp] theorem find_modify (transform : ParticipantId → Participant Sink → Participant Sink) :
    (room.modify transform).find id = (room.find id).map (transform id) :=
  lookup_mapValues transform

theorem mem_iff_find : id ∈ room.participants ↔ ∃ participant, room.find id = some participant :=
  mem_iff_exists_lookup

theorem not_mem_iff_find : id ∉ room.participants ↔ room.find id = none :=
  not_mem_iff_lookup

@[simp] theorem id_create (name : String) (hasKeyframeRequest : Bool) (maxParticipants : Nat) :
    (create name hasKeyframeRequest maxParticipants : Room Sink).id = name := rfl

@[simp] theorem find_create (name : String) (hasKeyframeRequest : Bool) (maxParticipants : Nat) :
    (create name hasKeyframeRequest maxParticipants : Room Sink).find id = none := rfl

theorem size_eq_zero : room.size = 0 ↔ ∀ id, room.find id = none :=
  UnorderedMap.size_eq_zero

/-- A successful `add` puts a fresh member under an unused id and touches
nobody else. -/
theorem find_of_add {sink : Option Sink} {added : Room Sink} {requests : List ParticipantId}
    (success : room.add id sink = .ok (added, requests)) :
    room.find id = none ∧ added.id = room.id ∧
      ∀ other, added.find other =
        if other = id then some { id, sink, needsKeyframe := true } else room.find other := by
  unfold add at success
  split at success
  · cases success
  · rename_i unused
    split at success
    · cases success
    · cases success
      exact ⟨not_mem_iff_find.mp unused, rfl, fun other => lookup_insert_eq other _⟩

@[simp] theorem find_erase : (room.erase id).find other = if other = id then none
    else room.find other :=
  lookup_erase_eq other

/-- Targets depend on the estimates alone. -/
theorem minEstimate_map (senderId : ParticipantId)
    (transform : ParticipantId → Participant Sink → Participant Sink)
    (keeps : ∀ pid participant, (transform pid participant).rembEstimate = participant.rembEstimate)
    (receivers : List (ParticipantId × Participant Sink)) :
    minEstimate senderId (receivers.map fun pair => (pair.1, transform pair.1 pair.2)) =
      minEstimate senderId receivers := by
  simp only [minEstimate, List.foldl_map, keeps]

theorem computeTarget_modify {transform : ParticipantId → Participant Sink → Participant Sink}
    (keeps : ∀ pid participant, (transform pid participant).rembEstimate = participant.rembEstimate)
    (senderId : ParticipantId) :
    (room.modify transform).computeTarget senderId = room.computeTarget senderId := by
  rw [computeTarget, computeTarget, modify, pairs_mapValues,
    minEstimate_map senderId transform keeps]

/-- After a recomputation every stored target is the computed one. -/
theorem find_recomputeTargetsLocked :
    room.recomputeTargetsLocked.find id = (room.find id).map fun participant =>
      participant.setTargetBitrate (room.recomputeTargetsLocked.computeTarget id) := by
  rw [recomputeTargetsLocked, find_modify, computeTarget_modify]
  intro pid participant
  rfl

theorem find_of_remove {removed : Room Sink} (success : room.remove id = .ok removed) :
    removed.id = room.id ∧
      ∀ other, removed.find other =
        ((if other = id then none else room.find other).map fun participant =>
          participant.setTargetBitrate (removed.computeTarget other)) := by
  unfold remove at success
  split at success
  · cases success
    refine ⟨rfl, fun other => ?_⟩
    rw [find_recomputeTargetsLocked, find_erase]
  · cases success

theorem remove_error {error : Error} (failed : room.remove id = .error error) :
    room.find id = none := by
  unfold remove at failed
  split at failed
  · cases failed
  · rename_i absent
    exact not_mem_iff_find.mp absent

theorem find_onRemb {bitrateBps : BitVec 32} (member : id ∈ room.participants) :
    (room.onRemb id bitrateBps).find other = (room.find other).map fun participant =>
      (if other = id then participant.setRembEstimate bitrateBps else participant).setTargetBitrate
        ((room.onRemb id bitrateBps).computeTarget other) := by
  rw [onRemb, if_pos member, find_recomputeTargetsLocked, find_modify, Option.map_map]
  rfl

theorem onRemb_absent {bitrateBps : BitVec 32} (absent : room.find id = none) :
    room.onRemb id bitrateBps = room :=
  if_neg (not_mem_iff_find.mpr absent)

theorem id_onRemb (bitrateBps : BitVec 32) : (room.onRemb id bitrateBps).id = room.id := by
  unfold onRemb
  split <;> rfl

theorem forward_absent {packet : RtpPacket} (absent : room.find id = none) :
    room.forward id packet = (room, []) :=
  if_neg (not_mem_iff_find.mpr absent)

theorem find_forward {packet : RtpPacket} (member : id ∈ room.participants) :
    (room.forward id packet).1.find other = (room.find other).map fun participant =>
      if other = id then participant else (participant.deliver packet).1 := by
  rw [forward, if_pos member, find_modify]

theorem id_forward (packet : RtpPacket) : (room.forward id packet).1.id = room.id := by
  unfold forward
  split <;> rfl

/-- One forwarding makes at most one call per member: on its own sink, with the
packet, unless the member is the sender. -/
theorem calls_forward {packet : RtpPacket} (member : id ∈ room.participants)
    (receiver : ParticipantId) :
    (room.forward id packet).2.filter (fun call => call.receiver = receiver) =
      if receiver = id then []
      else ((room.find receiver).bind Participant.sink).toList.map fun sink =>
        { room := room.id, receiver, sink, packet } := by
  rw [forward, if_pos member]
  simp only []
  rw [filter_filterMap_pairs]
  · by_cases echo : receiver = id
    · simp [echo]
    · simp only [if_neg echo, Participant.deliver, find]
      cases room.participants.lookup receiver with
      | none => rfl
      | some participant =>
          cases sinkEq : participant.sink <;> simp [sinkEq]
  · intro pair call selected
    split at selected
    · cases selected
    · rcases Option.map_eq_some_iff.mp selected with ⟨sink, _, rfl⟩
      rfl

/-- No call but a removal takes a member away. -/
theorem isSome_call {event : Event Sink} (stays : event ≠ .remove id)
    (member : (room.find id).isSome) : ((room.call event).1.find id).isSome := by
  cases event with
  | add newId sink =>
      simp only [call]
      cases outcome : room.add newId sink with
      | error error => exact member
      | ok result =>
          rcases @find_of_add _ room newId sink result.1 result.2 outcome with ⟨_, _, find_added⟩
          simp only [find_added]
          split
          · rfl
          · exact member
  | remove gone =>
      simp only [call]
      cases outcome : room.remove gone with
      | error error => exact member
      | ok removed =>
          have different : id ≠ gone := fun same => stays (by rw [same])
          simp only [(find_of_remove outcome).2, if_neg different, Option.isSome_map]
          exact member
  | forward senderId packet =>
      simp only [call]
      by_cases inside : senderId ∈ room.participants
      · rw [find_forward inside, Option.isSome_map]
        exact member
      · rw [forward_absent (not_mem_iff_find.mp inside)]
        exact member
  | onRemb reporter bitrateBps =>
      simp only [call]
      by_cases inside : reporter ∈ room.participants
      · rw [find_onRemb inside, Option.isSome_map]
        exact member
      · rw [onRemb_absent (not_mem_iff_find.mp inside)]
        exact member

/-- A successful `add` makes its id a member. -/
theorem isSome_of_add_succeeded {sink : Option Sink}
    (success : (room.call (.add id sink)).2.succeeded = true) :
    ((room.call (.add id sink)).1.find id).isSome := by
  simp only [call] at success ⊢
  cases outcome : room.add id sink with
  | error error =>
      rw [outcome] at success
      cases success
  | ok result =>
      rcases @find_of_add _ room id sink result.1 result.2 outcome with ⟨_, _, find_added⟩
      simp only [find_added, if_true, Option.isSome_some]

end Room

end Vela
