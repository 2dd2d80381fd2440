import Vela.Sfu.SFUServer

/-! # Concurrent calls

The same server driven from many threads. A call that works on a room takes two
steps: it looks the room up under the registry lock, and later uses it under the
room's own lock. Only a removal does both in one step. A room object has an
identity, and lives exactly as long as it is registered. -/

namespace Vela

open Foundation UnorderedMap

structure RegisteredRoom (Sink : Type) where
  address : Nat
  room : Room Sink

/-- The calls that use a room after the registry lock is released. -/
inductive RoomCall (Sink : Type) where
  | addParticipant (participantId : ParticipantId) (sink : Option Sink)
  | routePacket (senderId : ParticipantId) (packet : RtpPacket)
  | onRemb (participantId : ParticipantId) (bitrateBps : BitVec 32)

def RoomCall.use {Sink : Type} : RoomCall Sink → Room.Event Sink
  | .addParticipant participantId sink => .add participantId sink
  | .routePacket senderId packet => .forward senderId packet
  | .onRemb participantId bitrateBps => .onRemb participantId bitrateBps

def RoomCall.toEvent {Sink : Type} (roomId : String) : RoomCall Sink → SFUServer.Event Sink
  | .addParticipant participantId sink => .addParticipant roomId participantId sink
  | .routePacket senderId packet => .routePacket roomId senderId packet
  | .onRemb participantId bitrateBps => .onRemb roomId participantId bitrateBps

/-- A call between its two steps, with the room handle it holds. -/
structure InFlight (Sink : Type) where
  roomId : String
  address : Nat
  call : RoomCall Sink

structure SharedServer (Sink : Type) where
  hasKeyframeRequest : Bool
  rooms : UnorderedMap String (RegisteredRoom Sink)
  nextAddress : Nat
  inFlight : UnorderedMap Nat (InFlight Sink)

/-- What one step comes to. A second step whose room object is gone is a fault
of its own. -/
inductive Outcome (Sink : Type) where
  | disabled
  | running
  | returned (response : SfuResponse Sink)
  | danglingRoom

namespace SharedServer

variable {Sink : Type}

def create (hasKeyframeRequest : Bool) : SharedServer Sink where
  hasKeyframeRequest
  rooms := ∅
  nextAddress := 0
  inFlight := ∅

/-- The first step: joining makes the room if there is none, the other calls
return at once. -/
def lookup (state : SharedServer Sink) (callId : Nat) (roomId : String) (call : RoomCall Sink) :
    SharedServer Sink × Outcome Sink :=
  if callId ∈ state.inFlight then (state, .disabled)
  else
    match state.rooms.lookup roomId with
    | some registered =>
        ({ state with
            inFlight := state.inFlight.insert callId
              { roomId, address := registered.address, call } }, .running)
    | none =>
        match call with
        | .addParticipant _ _ =>
            ({ state with
                rooms := state.rooms.insert roomId
                  { address := state.nextAddress
                    room := Room.create roomId state.hasKeyframeRequest }
                nextAddress := state.nextAddress + 1
                inFlight := state.inFlight.insert callId
                  { roomId, address := state.nextAddress, call } }, .running)
        | .routePacket _ _ => (state, .returned {})
        | .onRemb _ _ => (state, .returned {})

/-- The second step, on the room object the handle points to. -/
def use (state : SharedServer Sink) (callId : Nat) : SharedServer Sink × Outcome Sink :=
  match state.inFlight.lookup callId with
  | none => (state, .disabled)
  | some flight =>
      let resumed := { state with inFlight := state.inFlight.erase callId }
      match state.rooms.lookup flight.roomId with
      | some registered =>
          if registered.address = flight.address then
            let (room, response) := registered.room.call flight.call.use
            ({ resumed with
                rooms := state.rooms.insert flight.roomId
                  { address := registered.address, room } }, .returned response)
          else (resumed, .danglingRoom)
      | none => (resumed, .danglingRoom)

def removeParticipant (state : SharedServer Sink) (roomId : String)
    (participantId : ParticipantId) : SharedServer Sink × Outcome Sink :=
  match state.rooms.lookup roomId with
  | none => (state, .returned { status := .error .notFound })
  | some registered =>
      let (room, status) := SFUServer.roomWithout registered.room participantId
      if room.size = 0 then
        ({ state with rooms := state.rooms.erase roomId }, .returned { status })
      else
        ({ state with
            rooms := state.rooms.insert roomId { address := registered.address, room } },
          .returned { status })

inductive Event (Sink : Type) where
  | lookup (callId : Nat) (roomId : String) (call : RoomCall Sink)
  | use (callId : Nat)
  | removeParticipant (roomId : String) (participantId : ParticipantId)

def step (state : SharedServer Sink) : Event Sink → SharedServer Sink × Outcome Sink
  | .lookup callId roomId call => state.lookup callId roomId call
  | .use callId => state.use callId
  | .removeParticipant roomId participantId => state.removeParticipant roomId participantId

def machine (hasKeyframeRequest : Bool) :
    Machine (SharedServer Sink) (Event Sink) (Outcome Sink) where
  initial := create hasKeyframeRequest
  step := step

/-- The participant that a `routePacket` starting now would reach. -/
def participant (state : SharedServer Sink) (roomId : String) (participantId : ParticipantId) :
    Option (Participant Sink) :=
  (state.rooms.lookup roomId).bind fun registered => registered.room.find participantId

/-- The room object registered under a name. -/
def addressOf (state : SharedServer Sink) (roomId : String) : Option Nat :=
  (state.rooms.lookup roomId).map RegisteredRoom.address

/-! ## Handles -/

/-- Every call in flight holds the room that is registered under its name. -/
def HandlesRegistered (state : SharedServer Sink) : Prop :=
  ∀ callId flight, state.inFlight.lookup callId = some flight →
    state.addressOf flight.roomId = some flight.address

/-- Nobody but possibly the one participant is in the room. -/
def OnlyMember (state : SharedServer Sink) (roomId : String) (participantId : ParticipantId) :
    Prop :=
  ∀ other, other ≠ participantId → state.participant roomId other = none

/-- The step takes no room away from a call in flight: a removal that leaves the
room empty finds no call holding it. -/
def SparesHandles (state : SharedServer Sink) : Event Sink → Prop
  | .removeParticipant roomId participantId =>
      state.OnlyMember roomId participantId →
        ∀ callId flight, state.inFlight.lookup callId = some flight → flight.roomId ≠ roomId
  | _ => True

/-! ## What each step does to rooms and handles -/

variable {state : SharedServer Sink} {callId : Nat} {roomId name : String}
  {participantId pid : ParticipantId}

/-- A first step keeps every room in place and adds at most its own handle, on
the room that then stands under the name. -/
theorem lookup_spec (state : SharedServer Sink) (callId : Nat) (roomId : String)
    (call : RoomCall Sink) :
    (∀ name address, state.addressOf name = some address →
      (state.lookup callId roomId call).1.addressOf name = some address) ∧
    (∀ name pid, (state.lookup callId roomId call).1.participant name pid =
      state.participant name pid) ∧
    ∀ other flight, (state.lookup callId roomId call).1.inFlight.lookup other = some flight →
      state.inFlight.lookup other = some flight ∨
        other = callId ∧
          (state.lookup callId roomId call).1.addressOf flight.roomId = some flight.address := by
  unfold lookup
  by_cases busy : callId ∈ state.inFlight
  · rw [if_pos busy]
    exact ⟨fun _ _ here => here, fun _ _ => rfl, fun _ _ found => Or.inl found⟩
  · rw [if_neg busy]
    cases registeredEq : state.rooms.lookup roomId with
    | some registered =>
        refine ⟨fun _ _ here => here, fun _ _ => rfl, fun other flight found => ?_⟩
        simp only [lookup_insert_eq] at found
        split at found
        · rename_i same
          cases found
          exact Or.inr ⟨same, by rw [addressOf, registeredEq, Option.map_some]⟩
        · exact Or.inl found
    | none =>
        cases call with
        | routePacket senderId packet =>
            exact ⟨fun _ _ here => here, fun _ _ => rfl, fun _ _ found => Or.inl found⟩
        | onRemb reporter bitrateBps =>
            exact ⟨fun _ _ here => here, fun _ _ => rfl, fun _ _ found => Or.inl found⟩
        | addParticipant newId sink =>
            refine ⟨fun name address here => ?_, fun name pid => ?_, fun other flight found => ?_⟩
            · have different : name ≠ roomId := by
                intro same
                rw [same, addressOf, registeredEq] at here
                cases here
              simp only [addressOf, lookup_insert_eq, if_neg different]
              exact here
            · simp only [participant, lookup_insert_eq]
              split
              · rename_i same
                rw [same, registeredEq]
                rfl
              · rfl
            · simp only [lookup_insert_eq] at found
              split at found
              · rename_i same
                cases found
                exact Or.inr ⟨same, by simp [addressOf]⟩
              · exact Or.inl found

/-- A second step leaves every name with its room object and gives up its own
handle only. -/
theorem use_spec (state : SharedServer Sink) (callId : Nat) :
    (∀ name, (state.use callId).1.addressOf name = state.addressOf name) ∧
    (∀ name pid, (state.participant name pid).isSome →
      ((state.use callId).1.participant name pid).isSome) ∧
    ∀ other flight, (state.use callId).1.inFlight.lookup other = some flight →
      state.inFlight.lookup other = some flight := by
  rw [use]
  cases held : state.inFlight.lookup callId with
  | none => exact ⟨fun _ => rfl, fun _ _ present => present, fun _ _ found => found⟩
  | some flight =>
      have given : ∀ other otherFlight,
          (state.inFlight.erase callId).lookup other = some otherFlight →
            state.inFlight.lookup other = some otherFlight := by
        intro other otherFlight found
        rw [lookup_erase_eq] at found
        split at found
        · cases found
        · exact found
      cases registeredEq : state.rooms.lookup flight.roomId with
      | none =>
          simp only [registeredEq]
          exact ⟨fun _ => rfl, fun _ _ present => present, given⟩
      | some registered =>
          simp only [registeredEq]
          split
          · refine ⟨fun name => ?_, fun name pid present => ?_, given⟩
            · simp only [addressOf, lookup_insert_eq]
              split
              · rename_i same
                rw [same, registeredEq]
                rfl
              · rfl
            · simp only [participant, lookup_insert_eq]
              split
              · rename_i same
                rw [participant, same, registeredEq] at present
                apply Room.isSome_call _ present
                cases flight.call <;> exact fun equal => nomatch equal
              · exact present
          · exact ⟨fun _ => rfl, fun _ _ present => present, given⟩

/-- A removal touches no handle, and no name but its own. -/
theorem inFlight_removeParticipant :
    (state.removeParticipant roomId participantId).1.inFlight = state.inFlight := by
  rw [removeParticipant]
  split
  · rfl
  · simp only
    split <;> rfl

theorem roomWithout_isSome (room : Room Sink) (participantId other : ParticipantId) :
    ((SFUServer.roomWithout room participantId).1.find other).isSome ↔
      other ≠ participantId ∧ (room.find other).isSome := by
  have same := (SFUServer.roomWithout_spec room participantId).2 other
  have views := congrArg Option.isSome same
  rw [Option.isSome_map] at views
  rw [views]
  split
  · rename_i equal
    simp [equal]
  · rename_i different
    simp [different]

theorem removeParticipant_of_onlyMember
    (only : state.OnlyMember roomId participantId) :
    (state.removeParticipant roomId participantId).1.addressOf roomId = none := by
  rw [removeParticipant]
  cases registeredEq : state.rooms.lookup roomId with
  | none =>
      simp only [addressOf, registeredEq, Option.map_none]
  | some registered =>
      have empty : (SFUServer.roomWithout registered.room participantId).1.size = 0 := by
        rw [Room.size_eq_zero]
        intro other
        rw [← Option.not_isSome_iff_eq_none, roomWithout_isSome]
        intro ⟨different, present⟩
        have absent := only other different
        rw [participant, registeredEq] at absent
        rw [Option.bind_some] at absent
        rw [absent] at present
        cases present
      simp only [empty, if_true, addressOf, lookup_erase_eq, Option.map_none]

/-- Whatever else is in the room keeps it registered. -/
theorem removeParticipant_of_other {other : ParticipantId} (different : other ≠ participantId)
    (present : (state.participant roomId other).isSome) :
    (∀ name, (state.removeParticipant roomId participantId).1.addressOf name =
      state.addressOf name) ∧
    ((state.removeParticipant roomId participantId).1.participant roomId other).isSome := by
  rw [removeParticipant]
  cases registeredEq : state.rooms.lookup roomId with
  | none =>
      rw [participant, registeredEq] at present
      cases present
  | some registered =>
      rw [participant, registeredEq, Option.bind_some] at present
      have stays : ((SFUServer.roomWithout registered.room participantId).1.find other).isSome :=
        (roomWithout_isSome registered.room participantId other).mpr ⟨different, present⟩
      have occupied : (SFUServer.roomWithout registered.room participantId).1.size ≠ 0 := by
        intro empty
        rw [Room.size_eq_zero.mp empty] at stays
        cases stays
      simp only [if_neg occupied]
      refine ⟨fun name => ?_, ?_⟩
      · simp only [addressOf, lookup_insert_eq]
        split
        · rename_i same
          rw [same, registeredEq]
          rfl
        · rfl
      · simp only [participant, lookup_insert_eq, if_true, Option.bind_some]
        exact stays

theorem removeParticipant_elsewhere (elsewhere : name ≠ roomId) :
    (state.removeParticipant roomId participantId).1.addressOf name = state.addressOf name ∧
      (state.removeParticipant roomId participantId).1.participant name pid =
        state.participant name pid := by
  rw [removeParticipant]
  split
  · exact ⟨rfl, rfl⟩
  · simp only
    split
    · simp only [addressOf, participant, lookup_erase_eq, if_neg elsewhere, and_self]
    · simp only [addressOf, participant, lookup_insert_eq, if_neg elsewhere, and_self]

/-! ## Which runs keep the handles -/

/-- One step keeps all handles on registered rooms exactly when it empties no
room that a call in flight holds. -/
theorem handlesRegistered_step (handles : HandlesRegistered state) (event : Event Sink) :
    HandlesRegistered (state.step event).1 ↔ SparesHandles state event := by
  cases event with
  | lookup callId roomId call =>
      rcases state.lookup_spec callId roomId call with ⟨keeps, _, given⟩
      apply iff_of_true _ trivial
      intro other flight found
      rcases given other flight found with before | ⟨_, registered⟩
      · exact keeps flight.roomId flight.address (handles other flight before)
      · exact registered
  | use callId =>
      rcases state.use_spec callId with ⟨keeps, _, given⟩
      apply iff_of_true _ trivial
      intro other flight found
      exact (keeps flight.roomId).trans (handles other flight (given other flight found))
  | removeParticipant roomId participantId =>
      simp only [step, SparesHandles]
      constructor
      · intro after only other flight found sameRoom
        rw [← inFlight_removeParticipant] at found
        have still := after other flight found
        rw [sameRoom, removeParticipant_of_onlyMember only] at still
        cases still
      · intro spares other flight found
        rw [inFlight_removeParticipant] at found
        have before := handles other flight found
        by_cases sameRoom : flight.roomId = roomId
        · have notOnly : ¬ state.OnlyMember roomId participantId := fun only =>
            spares only other flight found sameRoom
          rw [OnlyMember] at notOnly
          push Not at notOnly
          rcases notOnly with ⟨resident, different, present⟩
          rw [(removeParticipant_of_other different
            (Option.isSome_iff_ne_none.mpr present)).1]
          exact before
        · rw [(@removeParticipant_elsewhere _ state roomId flight.roomId participantId participantId
            sameRoom).1]
          exact before

/-- With its handle registered, a second step does find its room. -/
theorem use_of_handlesRegistered (handles : HandlesRegistered state) :
    (state.use callId).2 ≠ .danglingRoom := by
  rw [use]
  cases held : state.inFlight.lookup callId with
  | none => exact fun equal => nomatch equal
  | some flight =>
      rcases Option.map_eq_some_iff.mp (handles callId flight held) with
        ⟨registered, registeredEq, sameAddress⟩
      simp only [registeredEq, if_pos sameAddress]
      exact fun equal => nomatch equal

/-- A join that reports success has put its participant into the registered
room. -/
theorem participant_of_use {flight : InFlight Sink} {sink : Option Sink}
    {response : SfuResponse Sink} (held : state.inFlight.lookup callId = some flight)
    (joining : flight.call = .addParticipant participantId sink)
    (returned : (state.use callId).2 = .returned response) (success : response.succeeded = true) :
    ((state.use callId).1.participant flight.roomId participantId).isSome := by
  rw [use, held] at returned ⊢
  simp only at returned ⊢
  cases registeredEq : state.rooms.lookup flight.roomId with
  | none =>
      rw [registeredEq] at returned
      cases returned
  | some registered =>
      rw [registeredEq] at returned
      simp only at returned ⊢
      split at returned
      · rename_i sameAddress
        cases returned
        rw [joining, RoomCall.use] at success ⊢
        simp only [if_pos sameAddress, participant, lookup_insert_eq, if_true, Option.bind_some]
        exact Room.isSome_of_add_succeeded success
      · cases returned

/-- Only its own removal takes a participant out. -/
theorem participant_step {event : Event Sink}
    (stays : event ≠ .removeParticipant roomId participantId)
    (present : (state.participant roomId participantId).isSome) :
    ((state.step event).1.participant roomId participantId).isSome := by
  cases event with
  | lookup callId name call =>
      rw [step, (state.lookup_spec callId name call).2.1]
      exact present
  | use callId => exact (state.use_spec callId).2.1 roomId participantId present
  | removeParticipant name gone =>
      rw [step]
      by_cases sameRoom : roomId = name
      · have different : participantId ≠ gone := fun same => stays (by rw [sameRoom, same])
        rw [sameRoom] at present ⊢
        exact (removeParticipant_of_other different present).2
      · rw [(removeParticipant_elsewhere sameRoom).2]
        exact present

theorem participant_run (hasKeyframeRequest : Bool) {past during : List (Event Sink)}
    (stays : .removeParticipant roomId participantId ∉ during)
    (present : (((machine hasKeyframeRequest).run past).participant roomId participantId).isSome) :
    (((machine hasKeyframeRequest).run (past ++ during)).participant roomId
      participantId).isSome := by
  induction during using List.reverseRecOn with
  | nil =>
      rw [List.append_nil]
      exact present
  | append_singleton during event induction =>
      rw [List.mem_append, not_or] at stays
      rw [← List.append_assoc, Machine.run_snoc]
      apply participant_step _ (induction stays.1)
      intro same
      exact stays.2 (List.mem_singleton.mpr same.symm)

/-- Handles stay registered in every state of a run exactly when no removal
empties a room that a call in flight holds. In such a run no second step meets a
destroyed room, and a participant whose join reported success can be reached
until it is removed. -/
theorem handles_registered_iff (hasKeyframeRequest : Bool) (events : List (Event Sink)) :
    ((machine hasKeyframeRequest).Always HandlesRegistered events ↔
      (machine hasKeyframeRequest).EveryStep SparesHandles events) ∧
    ((machine hasKeyframeRequest).EveryStep SparesHandles events →
      (∀ past callId, past ++ [.use callId] <+: events →
        (machine hasKeyframeRequest).output ((machine hasKeyframeRequest).run past)
          (.use callId) ≠ .danglingRoom) ∧
      ∀ past callId during flight participantId sink response,
        past ++ [.use callId] ++ during <+: events →
        ((machine hasKeyframeRequest).run past).inFlight.lookup callId = some flight →
        flight.call = .addParticipant participantId sink →
        (machine hasKeyframeRequest).output ((machine hasKeyframeRequest).run past)
          (.use callId) = .returned response →
        response.succeeded = true →
        .removeParticipant flight.roomId participantId ∉ during →
        (((machine hasKeyframeRequest).run (past ++ [.use callId] ++ during)).participant
          flight.roomId participantId).isSome) := by
  have exactly : (machine hasKeyframeRequest).Always HandlesRegistered events ↔
      (machine hasKeyframeRequest).EveryStep SparesHandles events := by
    apply Machine.always_iff_everyStep
    · intro callId flight found
      cases found
    · intro state event handles
      exact handlesRegistered_step handles event
  refine ⟨exactly, fun spares => ⟨fun past callId isPrefix => ?_, ?_⟩⟩
  · have before := exactly.mpr spares past
      ((List.prefix_append past [.use callId]).trans isPrefix)
    exact use_of_handlesRegistered before
  · intro past callId during flight participantId sink response _ held joining returned success
      stays
    apply participant_run hasKeyframeRequest stays
    rw [Machine.run_snoc]
    exact participant_of_use held joining returned success

/-- B joins in two uninterrupted steps before A leaves, and can be reached. -/
theorem handles_registered_leave_after_join :
    ((machine false).run [.lookup 1 "room" (.addParticipant "A" none), .use 1,
      .lookup 2 "room" (.addParticipant "B" (some ())), .use 2,
      .removeParticipant "room" "A"]).participant "room" "B" ≠ none := by
  have joins : (machine false).EveryStep SparesHandles
      [.lookup 1 "room" (.addParticipant "A" none), .use 1,
        .lookup 2 "room" (.addParticipant "B" (some ())), .use 2] := by
    intro past event isPrefix
    have member := isPrefix.subset (List.mem_append_right past (List.mem_singleton_self event))
    simp only [List.mem_cons, List.not_mem_nil, or_false] at member
    rcases member with rfl | rfl | rfl | rfl <;> trivial
  have spares := Machine.everyStep_snoc.mpr
    ⟨joins, show SparesHandles _ (.removeParticipant "room" "A") from
      fun _ callId flight found => nomatch found⟩
  have reached := ((handles_registered_iff false _).2 spares).2
    [.lookup 1 "room" (.addParticipant "A" none), .use 1,
      .lookup 2 "room" (.addParticipant "B" (some ()))] 2 [.removeParticipant "room" "A"]
    _ "B" (some ()) {} (List.prefix_refl _) rfl rfl rfl rfl (by simp)
  exact Option.isSome_iff_ne_none.mp reached

/-- A leaves between the two steps of B's join: the room B looked up is gone when
B's second step uses it, and B is in no room afterwards. -/
theorem leave_during_join_dangles :
    let past : List (Event Unit) :=
      [.lookup 1 "room" (.addParticipant "A" none), .use 1,
        .lookup 2 "room" (.addParticipant "B" none), .removeParticipant "room" "A"]
    ((machine false).run past).addressOf "room" = none ∧
      ((machine false).run past).inFlight.lookup 2 =
        some { roomId := "room", address := 0, call := .addParticipant "B" none } ∧
      (machine false).output ((machine false).run past) (.use 2) = .danglingRoom ∧
      ((machine false).run (past ++ [.use 2])).participant "room" "B" = none := by
  intro past
  exact ⟨rfl, rfl, rfl, rfl⟩

end SharedServer

end Vela
