import Vela.Foundation.Parts
import Vela.Sfu.Interleaving

/-! # Concurrent calls in one order

Calls that run side by side come to what the sequential server does when it is given
them one by one, each in the place of the step with which it takes effect. A join
makes its room a step before it uses it, so for a while the sequential server may lack
a room that is still empty here. -/

namespace Vela

open Foundation UnorderedMap

/-- What a step gives back to a caller. -/
def Outcome.responses {Sink : Type} : Outcome Sink → List (SfuResponse Sink)
  | .returned response => [response]
  | .disabled => []
  | .running => []
  | .danglingRoom => []

/-- Whether the call makes the room it finds missing. -/
def RoomCall.Joins {Sink : Type} : RoomCall Sink → Prop
  | .addParticipant _ _ => True
  | .routePacket _ _ => False
  | .onRemb _ _ => False

namespace SharedServer

variable {Sink : Type}

/-- The call that takes effect with a step: one that holds a room does so with its
second step, every other one with its only step. -/
def taken (state : SharedServer Sink) : Event Sink → List (SFUServer.Event Sink)
  | .lookup callId roomId call =>
      match (state.lookup callId roomId call).2 with
      | .returned _ => [call.toEvent roomId]
      | _ => []
  | .use callId =>
      match state.inFlight.lookup callId with
      | some flight => [flight.call.toEvent flight.roomId]
      | none => []
  | .removeParticipant roomId participantId => [.removeParticipant roomId participantId]

def findRoom (state : SharedServer Sink) (roomId : String) : Option (Room Sink) :=
  (state.rooms.lookup roomId).map RegisteredRoom.room

/-- A join in flight has made the room, and nobody has changed it since. -/
def Awaited (state : SharedServer Sink) (roomId : String) : Prop :=
  state.findRoom roomId = some (Room.create roomId state.hasKeyframeRequest) ∧
    ∃ callId flight, state.inFlight.lookup callId = some flight ∧ flight.roomId = roomId ∧
      flight.call.Joins

/-- The sequential server has the same rooms, but perhaps not those that a join is
still to use. -/
structure Tracks (state : SharedServer Sink) (server : SFUServer Sink) : Prop where
  sameRequests : state.hasKeyframeRequest = server.hasKeyframeRequest
  sameRooms : ∀ roomId, state.findRoom roomId = server.findRoom roomId ∨
    state.Awaited roomId ∧ server.findRoom roomId = none

variable {state after : SharedServer Sink} {server : SFUServer Sink} {roomId : String}
  {callId : Nat}

/-! ## The sequential call -/

/-- On a registered room a sequential call comes down to the room's call. -/
theorem call_of_findRoom {room : Room Sink} (found : server.findRoom roomId = some room)
    (call : RoomCall Sink) :
    (server.call (call.toEvent roomId)).1.hasKeyframeRequest = server.hasKeyframeRequest ∧
      (server.call (call.toEvent roomId)).2 = (room.call call.use).2 ∧
      ∀ other, (server.call (call.toEvent roomId)).1.findRoom other =
        if other = roomId then some (room.call call.use).1 else server.findRoom other := by
  have named : room.id = roomId := SFUServer.id_of_findRoom found
  have unchanged : ∀ other, server.findRoom other =
      if other = roomId then some room else server.findRoom other := by
    intro other
    split
    · rename_i same
      rw [same, found]
    · rfl
  cases call with
  | addParticipant participantId sink =>
      simp only [RoomCall.toEvent, RoomCall.use, SFUServer.call, SFUServer.addParticipant,
        SFUServer.findOrCreateRoom, found, Room.call]
      cases outcome : room.add participantId sink with
      | error error => exact ⟨rfl, rfl, unchanged⟩
      | ok result =>
          have sameName :=
            (@Room.find_of_add _ room participantId sink result.1 result.2 outcome).2.1
          refine ⟨rfl, rfl, fun other => ?_⟩
          simp only [SFUServer.findRoom_setRoom, sameName, named]
  | routePacket senderId packet =>
      simp only [RoomCall.toEvent, RoomCall.use, SFUServer.call, SFUServer.routePacket, found,
        Room.call]
      refine ⟨rfl, trivial, fun other => ?_⟩
      simp only [SFUServer.findRoom_setRoom, Room.id_forward, named]
  | onRemb reporter bitrateBps =>
      simp only [RoomCall.toEvent, RoomCall.use, SFUServer.call, SFUServer.onRemb, found, Room.call]
      refine ⟨rfl, trivial, fun other => ?_⟩
      simp only [SFUServer.findRoom_setRoom, Room.id_onRemb, named]

/-- A sequential join makes a missing room before it uses it. -/
theorem join_of_missing (missing : server.findRoom roomId = none) {call : RoomCall Sink}
    (joins : call.Joins) :
    server.call (call.toEvent roomId) =
      (server.setRoom (Room.create roomId server.hasKeyframeRequest)).call
        (call.toEvent roomId) := by
  have fresh : (server.setRoom (Room.create roomId server.hasKeyframeRequest)).findRoom
      roomId = some (Room.create roomId server.hasKeyframeRequest) := by
    rw [SFUServer.findRoom_setRoom]
    exact if_pos rfl
  cases call with
  | addParticipant participantId sink =>
      simp only [RoomCall.toEvent, SFUServer.call, SFUServer.addParticipant,
        SFUServer.findOrCreateRoom, missing, fresh]
  | routePacket senderId packet => cases joins
  | onRemb reporter bitrateBps => cases joins

/-- The other calls come to nothing, be the room missing or empty. -/
theorem idle_of_missing (missing : server.findRoom roomId = none) {call : RoomCall Sink}
    (stays : ¬ call.Joins) : server.call (call.toEvent roomId) = (server, {}) := by
  cases call with
  | addParticipant participantId sink => exact absurd trivial stays
  | routePacket senderId packet =>
      simp only [RoomCall.toEvent, SFUServer.call, SFUServer.routePacket, missing]
  | onRemb reporter bitrateBps =>
      simp only [RoomCall.toEvent, SFUServer.call, SFUServer.onRemb, missing]

theorem idle_of_empty (hasKeyframeRequest : Bool) {call : RoomCall Sink} (stays : ¬ call.Joins) :
    (Room.create roomId hasKeyframeRequest).call call.use =
      (Room.create roomId hasKeyframeRequest, {}) := by
  cases call with
  | addParticipant participantId sink => exact absurd trivial stays
  | routePacket senderId packet =>
      rw [RoomCall.use, Room.call, Room.forward_absent (Room.find_create _ _ _)]
  | onRemb reporter bitrateBps =>
      rw [RoomCall.use, Room.call, Room.onRemb_absent (Room.find_create _ _ _)]

/-! ## One step -/

/-- A room stays awaited while it and its join do. -/
theorem Awaited.mono (awaited : state.Awaited roomId)
    (sameRequests : after.hasKeyframeRequest = state.hasKeyframeRequest)
    (sameRoom : after.findRoom roomId = state.findRoom roomId)
    (keepsJoins : ∀ callId flight, state.inFlight.lookup callId = some flight →
      flight.roomId = roomId → flight.call.Joins → after.inFlight.lookup callId = some flight) :
    after.Awaited roomId := by
  rcases awaited with ⟨empty, callId, flight, held, named, joins⟩
  rw [← sameRequests, ← sameRoom] at empty
  exact ⟨empty, callId, flight, keepsJoins callId flight held named joins, named, joins⟩

theorem Tracks.missing (tracks : state.Tracks server) (missing : state.rooms.lookup roomId = none) :
    server.findRoom roomId = none := by
  rcases tracks.sameRooms roomId with same | ⟨_, missing⟩
  · rw [← same, findRoom, missing, Option.map_none]
  · exact missing

/-- A first step changes no room that the sequential server has. -/
theorem tracks_lookup (tracks : state.Tracks server) (callId : Nat) (roomId : String)
    (call : RoomCall Sink) :
    (state.lookup callId roomId call).1.Tracks server ∧
      ∀ response, (state.lookup callId roomId call).2 = .returned response →
        server.call (call.toEvent roomId) = (server, response) := by
  by_cases busy : callId ∈ state.inFlight
  · simp only [lookup, if_pos busy]
    exact ⟨tracks, fun response returned => nomatch returned⟩
  · -- A new handle leaves the ones there are.
    have keeps : ∀ newFlight other flight, state.inFlight.lookup other = some flight →
        (state.inFlight.insert callId newFlight).lookup other = some flight := by
      intro newFlight other flight held
      have different : other ≠ callId := by
        intro same
        rw [← same, mem_iff_exists_lookup] at busy
        exact busy ⟨flight, held⟩
      rw [lookup_insert_eq, if_neg different]
      exact held
    cases registeredEq : state.rooms.lookup roomId with
    | some registered =>
        simp only [lookup, if_neg busy, registeredEq]
        refine ⟨⟨tracks.sameRequests, fun name => ?_⟩, fun response returned => nomatch returned⟩
        rcases tracks.sameRooms name with same | ⟨awaited, missing⟩
        · exact Or.inl same
        · exact Or.inr ⟨awaited.mono rfl rfl fun other flight held _ _ => keeps _ other flight held,
            missing⟩
    | none =>
        have missing := tracks.missing registeredEq
        cases call with
        | routePacket senderId packet =>
            simp only [lookup, if_neg busy, registeredEq]
            refine ⟨tracks, fun response returned => ?_⟩
            cases returned
            exact idle_of_missing missing id
        | onRemb reporter bitrateBps =>
            simp only [lookup, if_neg busy, registeredEq]
            refine ⟨tracks, fun response returned => ?_⟩
            cases returned
            exact idle_of_missing missing id
        | addParticipant participantId sink =>
            simp only [lookup, if_neg busy, registeredEq]
            refine ⟨⟨tracks.sameRequests, fun name => ?_⟩,
              fun response returned => nomatch returned⟩
            by_cases here : name = roomId
            · rw [here]
              refine Or.inr ⟨⟨?_, callId, _, AList.lookup_insert _, rfl, trivial⟩, missing⟩
              rw [findRoom, AList.lookup_insert, Option.map_some]
            · have sameRoom : (state.rooms.insert roomId
                  { address := state.nextAddress
                    room := Room.create roomId state.hasKeyframeRequest }).lookup name =
                  state.rooms.lookup name := by
                rw [lookup_insert_eq, if_neg here]
              rcases tracks.sameRooms name with same | ⟨awaited, missing⟩
              · refine Or.inl ?_
                rw [← same, findRoom, findRoom, sameRoom]
              · refine Or.inr ⟨awaited.mono rfl ?_ fun other flight held _ _ =>
                  keeps _ other flight held, missing⟩
                rw [findRoom, findRoom, sameRoom]

/-- A second step that finds its room makes the room's call, and gives up its own
handle only. -/
theorem use_registered {flight : InFlight Sink} {registered : RegisteredRoom Sink}
    (held : state.inFlight.lookup callId = some flight)
    (registeredEq : state.rooms.lookup flight.roomId = some registered)
    (sameAddress : registered.address = flight.address) :
    (state.use callId).2 = .returned (registered.room.call flight.call.use).2 ∧
      (state.use callId).1.hasKeyframeRequest = state.hasKeyframeRequest ∧
      (∀ name, (state.use callId).1.findRoom name =
        if name = flight.roomId then some (registered.room.call flight.call.use).1
        else state.findRoom name) ∧
      ∀ other otherFlight, otherFlight ≠ flight →
        state.inFlight.lookup other = some otherFlight →
          (state.use callId).1.inFlight.lookup other = some otherFlight := by
  have used : state.use callId =
      ({ state with
          inFlight := state.inFlight.erase callId
          rooms := state.rooms.insert flight.roomId
            { address := registered.address
              room := (registered.room.call flight.call.use).1 } },
        .returned (registered.room.call flight.call.use).2) := by
    simp only [use, held, registeredEq, if_pos sameAddress]
  rw [used]
  refine ⟨rfl, rfl, fun name => ?_, fun other otherFlight different heldOther => ?_⟩
  · rw [findRoom, lookup_insert_eq]
    split <;> rfl
  · have notThis : other ≠ callId := by
      intro same
      rw [same, held] at heldOther
      exact different (Option.some.inj heldOther).symm
    simp only [lookup_erase_eq, if_neg notThis]
    exact heldOther

/-- A second step that finds its room does what the sequential call does. -/
theorem tracks_use (tracks : state.Tracks server) {flight : InFlight Sink}
    {registered : RegisteredRoom Sink} (held : state.inFlight.lookup callId = some flight)
    (registeredEq : state.rooms.lookup flight.roomId = some registered)
    (sameAddress : registered.address = flight.address) :
    (state.use callId).1.Tracks (server.call (flight.call.toEvent flight.roomId)).1 ∧
      (state.use callId).2 =
        .returned (server.call (flight.call.toEvent flight.roomId)).2 := by
  rcases use_registered held registeredEq sameAddress with ⟨outcome, requests, rooms, keeps⟩
  have elsewhere : ∀ name, name ≠ flight.roomId → state.Awaited name →
      (state.use callId).1.Awaited name := by
    intro name other awaited
    refine awaited.mono requests ?_ fun otherId otherFlight heldOther named _ => ?_
    · rw [rooms, if_neg other]
    · refine keeps otherId otherFlight ?_ heldOther
      intro same
      rw [same] at named
      exact other named.symm
  -- The sequential call on a server that has the room.
  have onRoom : ∀ hosting : SFUServer Sink,
      hosting.hasKeyframeRequest = server.hasKeyframeRequest →
      hosting.findRoom flight.roomId = some registered.room →
      (∀ name, name ≠ flight.roomId → hosting.findRoom name = server.findRoom name) →
        (state.use callId).1.Tracks (hosting.call (flight.call.toEvent flight.roomId)).1 ∧
          (state.use callId).2 =
            .returned (hosting.call (flight.call.toEvent flight.roomId)).2 := by
    intro hosting sameFlag found others
    rcases call_of_findRoom found flight.call with ⟨sameRequests, sameResponse, sameRooms⟩
    refine ⟨⟨?_, fun name => ?_⟩, ?_⟩
    · rw [requests, sameRequests, sameFlag, tracks.sameRequests]
    · rw [rooms, sameRooms]
      by_cases here : name = flight.roomId
      · rw [if_pos here, if_pos here]
        exact Or.inl rfl
      · rw [if_neg here, if_neg here, others name here]
        rcases tracks.sameRooms name with same | ⟨awaited, missing⟩
        · exact Or.inl same
        · exact Or.inr ⟨elsewhere name here awaited, missing⟩
    · rw [outcome, sameResponse]
  have here : state.findRoom flight.roomId = some registered.room := by
    rw [findRoom, registeredEq, Option.map_some]
  rcases tracks.sameRooms flight.roomId with same | ⟨awaited, missing⟩
  · exact onRoom server rfl (same.symm.trans here) fun _ _ => rfl
  · have empty := awaited.1
    rw [here] at empty
    have created : registered.room = Room.create flight.roomId state.hasKeyframeRequest :=
      Option.some.inj empty
    by_cases joins : flight.call.Joins
    · rw [join_of_missing missing joins]
      apply onRoom
      · rfl
      · rw [SFUServer.findRoom_setRoom, Room.id_create, if_pos rfl, created, tracks.sameRequests]
      · intro name other
        rw [SFUServer.findRoom_setRoom, Room.id_create, if_neg other]
    · -- Nothing happens to the empty room, and its join is still to come.
      rw [created, idle_of_empty _ joins] at outcome rooms
      rw [idle_of_missing missing joins]
      refine ⟨⟨requests.trans tracks.sameRequests, fun name => ?_⟩, outcome⟩
      by_cases same : name = flight.roomId
      · rw [same]
        refine Or.inr ⟨awaited.mono requests ?_ fun otherId otherFlight heldOther _ othersJoin =>
          ?_, missing⟩
        · rw [rooms, if_pos rfl, awaited.1]
        · refine keeps otherId otherFlight ?_ heldOther
          intro this
          rw [this] at othersJoin
          exact joins othersJoin
      · rcases tracks.sameRooms name with sameRoom | ⟨awaitedThere, missingThere⟩
        · refine Or.inl ?_
          rw [rooms, if_neg same, sameRoom]
        · exact Or.inr ⟨elsewhere name same awaitedThere, missingThere⟩

/-- What a removal leaves of a room: nothing, if nobody is in it any more. -/
def remains (room : Room Sink) (participantId : ParticipantId) : Option (Room Sink) :=
  let left := (SFUServer.roomWithout room participantId).1
  if left.size = 0 then none else some left

theorem removeParticipant_registered {registered : RegisteredRoom Sink}
    (registeredEq : state.rooms.lookup roomId = some registered) (participantId : ParticipantId) :
    (state.removeParticipant roomId participantId).2 =
        .returned { status := (SFUServer.roomWithout registered.room participantId).2 } ∧
      (state.removeParticipant roomId participantId).1.hasKeyframeRequest =
        state.hasKeyframeRequest ∧
      ∀ name, (state.removeParticipant roomId participantId).1.findRoom name =
        if name = roomId then remains registered.room participantId else state.findRoom name := by
  simp only [removeParticipant, registeredEq, remains]
  split
  · refine ⟨rfl, rfl, fun name => ?_⟩
    rw [findRoom, lookup_erase_eq]
    split <;> rfl
  · refine ⟨rfl, rfl, fun name => ?_⟩
    rw [findRoom, lookup_insert_eq]
    split <;> rfl

theorem removeParticipant_of_findRoom {room : Room Sink}
    (found : server.findRoom roomId = some room) (participantId : ParticipantId) :
    (server.removeParticipant roomId participantId).2 =
        { status := (SFUServer.roomWithout room participantId).2 } ∧
      (server.removeParticipant roomId participantId).1.hasKeyframeRequest =
        server.hasKeyframeRequest ∧
      ∀ name, (server.removeParticipant roomId participantId).1.findRoom name =
        if name = roomId then remains room participantId else server.findRoom name := by
  have named : (SFUServer.roomWithout room participantId).1.id = roomId :=
    (SFUServer.roomWithout_spec room participantId).1.trans (SFUServer.id_of_findRoom found)
  simp only [SFUServer.removeParticipant, found, remains]
  split
  · exact ⟨rfl, rfl, fun name => SFUServer.findRoom_eraseRoom⟩
  · refine ⟨rfl, rfl, fun name => ?_⟩
    rw [SFUServer.findRoom_setRoom, named]

/-- A removal does what the sequential one does. -/
theorem tracks_removeParticipant (tracks : state.Tracks server) (roomId : String)
    (participantId : ParticipantId) :
    (state.removeParticipant roomId participantId).1.Tracks
        (server.removeParticipant roomId participantId).1 ∧
      (state.removeParticipant roomId participantId).2 =
        .returned (server.removeParticipant roomId participantId).2 := by
  cases registeredEq : state.rooms.lookup roomId with
  | none =>
      have missing := tracks.missing registeredEq
      simp only [removeParticipant, registeredEq, SFUServer.removeParticipant, missing]
      exact ⟨tracks, trivial⟩
  | some registered =>
      rcases removeParticipant_registered registeredEq participantId with
        ⟨outcome, requests, rooms⟩
      have elsewhere : ∀ name, name ≠ roomId → state.Awaited name →
          (state.removeParticipant roomId participantId).1.Awaited name := by
        intro name other awaited
        refine awaited.mono requests ?_ fun callId flight held _ _ => ?_
        · rw [rooms, if_neg other]
        · rw [inFlight_removeParticipant]
          exact held
      have here : state.findRoom roomId = some registered.room := by
        rw [findRoom, registeredEq, Option.map_some]
      rcases tracks.sameRooms roomId with same | ⟨awaited, missing⟩
      · rcases removeParticipant_of_findRoom (same.symm.trans here) participantId with
          ⟨sequential, sameRequests, sameRooms⟩
        refine ⟨⟨?_, fun name => ?_⟩, ?_⟩
        · rw [requests, sameRequests, tracks.sameRequests]
        · rw [rooms, sameRooms]
          by_cases this : name = roomId
          · rw [if_pos this, if_pos this]
            exact Or.inl rfl
          · rw [if_neg this, if_neg this]
            rcases tracks.sameRooms name with sameRoom | ⟨awaited, missing⟩
            · exact Or.inl sameRoom
            · exact Or.inr ⟨elsewhere name this awaited, missing⟩
        · rw [outcome, sequential]
      · -- The removal finds nobody, and takes the empty room from the join that made it.
        have empty := awaited.1
        rw [here] at empty
        rw [Option.some.inj empty] at outcome rooms
        simp only [SFUServer.removeParticipant, missing]
        refine ⟨⟨requests.trans tracks.sameRequests, fun name => ?_⟩, outcome⟩
        by_cases this : name = roomId
        · refine Or.inl ?_
          rw [rooms, if_pos this, this, missing]
          rfl
        · rcases tracks.sameRooms name with sameRoom | ⟨awaitedThere, missingThere⟩
          · refine Or.inl ?_
            rw [rooms, if_neg this, sameRoom]
          · exact Or.inr ⟨elsewhere name this awaitedThere, missingThere⟩

/-! ## Runs -/

/-- One step shows what the sequential server does with the call that takes effect. -/
theorem tracks_step {hasKeyframeRequest : Bool} (tracks : state.Tracks server)
    (handles : HandlesRegistered state) (event : Event Sink) :
    (state.step event).1.Tracks
        ((state.taken event).foldl (SFUServer.machine hasKeyframeRequest).next server) ∧
      (state.step event).2.responses =
        ((SFUServer.machine hasKeyframeRequest).transcriptFrom server
          (state.taken event)).map Prod.snd := by
  cases event with
  | lookup callId roomId call =>
      rcases tracks_lookup tracks callId roomId call with ⟨tracksAfter, returns⟩
      simp only [step, taken]
      cases outcome : (state.lookup callId roomId call).2 with
      | disabled => exact ⟨tracksAfter, rfl⟩
      | running => exact ⟨tracksAfter, rfl⟩
      | danglingRoom => exact ⟨tracksAfter, rfl⟩
      | returned response =>
          have sequential := returns response outcome
          simp only [List.foldl_cons, List.foldl_nil, Machine.next, SFUServer.machine,
            Machine.transcriptFrom, Machine.output, sequential]
          exact ⟨tracksAfter, rfl⟩
  | use callId =>
      simp only [step, taken]
      cases held : state.inFlight.lookup callId with
      | none =>
          simp only [use, held]
          exact ⟨tracks, rfl⟩
      | some flight =>
          rcases Option.map_eq_some_iff.mp (handles callId flight held) with
            ⟨registered, registeredEq, sameAddress⟩
          rcases tracks_use tracks held registeredEq sameAddress with ⟨tracksAfter, outcome⟩
          rw [outcome]
          exact ⟨tracksAfter, rfl⟩
  | removeParticipant roomId participantId =>
      rcases tracks_removeParticipant tracks roomId participantId with ⟨tracksAfter, outcome⟩
      simp only [step, taken]
      rw [outcome]
      exact ⟨tracksAfter, rfl⟩

theorem Tracks.participant (tracks : state.Tracks server) (roomId : String)
    (participantId : ParticipantId) :
    state.participant roomId participantId = server.participant roomId participantId := by
  have view : state.participant roomId participantId =
      (state.findRoom roomId).bind fun room => room.find participantId := by
    rw [SharedServer.participant, findRoom, Option.bind_map]
    rfl
  rw [view, SFUServer.participant]
  rcases tracks.sameRooms roomId with same | ⟨awaited, missing⟩
  · rw [same]
  · rw [awaited.1, missing]
    rfl

/-- Calls that run side by side, no removal taking a room away from one of them, give
their callers what the sequential server gives them, called in the order of the
steps with which they take effect, and leave every room with the same
participants; once none is under way the rooms themselves are the same. -/
theorem calls_take_turns (hasKeyframeRequest : Bool) (events : List (Event Sink))
    (spares : (machine hasKeyframeRequest).EveryStep SparesHandles events) :
    ((machine hasKeyframeRequest).outputs events).flatMap Outcome.responses =
        (SFUServer.machine hasKeyframeRequest).outputs
          ((machine hasKeyframeRequest).shares taken events) ∧
      (∀ roomId participantId,
        ((machine hasKeyframeRequest).run events).participant roomId participantId =
          ((SFUServer.machine hasKeyframeRequest).run
            ((machine hasKeyframeRequest).shares taken events)).participant roomId
              participantId) ∧
      (((machine hasKeyframeRequest).run events).inFlight = ∅ → ∀ roomId,
        ((machine hasKeyframeRequest).run events).findRoom roomId =
          ((SFUServer.machine hasKeyframeRequest).run
            ((machine hasKeyframeRequest).shares taken events)).findRoom roomId) := by
  have refined := @Machine.refinement _ _ _ _ _ _ (machine hasKeyframeRequest)
    (SFUServer.machine hasKeyframeRequest) taken Outcome.responses
    (fun state server => state.Tracks server ∧ HandlesRegistered state) SparesHandles
    ⟨⟨rfl, fun roomId => Or.inl rfl⟩, fun callId flight held => nomatch held⟩
    (by
      intro state server event ⟨tracks, handles⟩ spares
      rcases tracks_step tracks handles event with ⟨tracksAfter, shown⟩
      exact ⟨⟨tracksAfter, (handlesRegistered_step handles event).mpr spares⟩, shown⟩)
    events spares
  rcases refined with ⟨⟨tracks, _⟩, sameResponses⟩
  refine ⟨sameResponses, tracks.participant, fun idle roomId => ?_⟩
  rcases tracks.sameRooms roomId with same | ⟨⟨_, callId, flight, held, _⟩, _⟩
  · exact same
  · rw [idle] at held
    cases held

/-- A makes the room, B overtakes it, and the report of A comes to nothing because it
takes effect before the join of A does. B leaves when nobody is on the way in. -/
theorem calls_take_turns_overtaken :
    ((machine false).outputs [.lookup 1 "room" (.addParticipant "A" none),
        .lookup 2 "room" (.addParticipant "B" (some ())), .lookup 3 "room" (.onRemb "A" 800000),
        .use 2, .use 3, .use 1, .removeParticipant "room" "B"]).flatMap Outcome.responses =
      (SFUServer.machine false).outputs [.addParticipant "room" "B" (some ()),
        .onRemb "room" "A" 800000, .addParticipant "room" "A" none,
        .removeParticipant "room" "B"] := by
  have calls : (machine false).EveryStep SparesHandles
      [.lookup 1 "room" (.addParticipant "A" none),
        .lookup 2 "room" (.addParticipant "B" (some ())), .lookup 3 "room" (.onRemb "A" 800000),
        .use 2, .use 3, .use 1] := by
    intro past event isPrefix
    have member := isPrefix.subset (List.mem_append_right past (List.mem_singleton_self event))
    simp only [List.mem_cons, List.not_mem_nil, or_false] at member
    rcases member with rfl | rfl | rfl | rfl | rfl | rfl <;> trivial
  have spares := Machine.everyStep_snoc.mpr
    ⟨calls, show SparesHandles _ (.removeParticipant "room" "B") from
      fun _ callId flight held => nomatch held⟩
  exact (calls_take_turns false _ spares).1

end SharedServer

end Vela
