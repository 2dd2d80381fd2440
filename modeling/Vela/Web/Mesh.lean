import Vela.Web.Membership

/-! # The mesh of peers

The stock client makes an offer to every peer that its `joined` reply lists, and
waits for the offers of the others. Where each connection joins once, any two
members of a room are introduced once: the later joiner has the earlier one in its
list, the earlier one is told of the later, and a departure is told to each member
that stays. -/

namespace Vela

open Foundation

namespace WebServer

variable {Number : Type}

/-! ## What a connection was sent -/

def Effect.frameTo (connection : ConnectionNumber) : Effect Number → Option (Frame Number)
  | .send target frame => if target = connection then some frame else none
  | _ => none

/-- The frames that some effects send to a connection. -/
def framesIn (connection : ConnectionNumber) (effects : List (Effect Number)) :
    List (Frame Number) :=
  effects.filterMap (Effect.frameTo connection)

def framesTo (connection : ConnectionNumber) (transcript : List (Event × List (Effect Number))) :
    List (Frame Number) :=
  transcript.flatMap fun step => framesIn connection step.2

/-- The peers that the stock client makes an offer to when a frame comes in. -/
def Frame.offers : Frame Number → List String
  | .joined _ peers => peers
  | _ => []

def Frame.isPeerJoined (id : String) : Frame Number → Bool
  | .peerJoined other => other = id
  | _ => false

def Frame.isPeerLeft (id : String) : Frame Number → Bool
  | .peerLeft other => other = id
  | _ => false

def offersTo (target : ConnectionNumber) (frames : List (Frame Number)) : Nat :=
  (frames.flatMap Frame.offers).count (toString target)

def arrivalsOf (newcomer : ConnectionNumber) (frames : List (Frame Number)) : Nat :=
  frames.countP (Frame.isPeerJoined (toString newcomer))

def departuresOf (leaver : ConnectionNumber) (frames : List (Frame Number)) : Nat :=
  frames.countP (Frame.isPeerLeft (toString leaver))

section Counting

variable (listener other : ConnectionNumber) (transcript : List (Event × List (Effect Number)))

/-- How often a connection is told to make an offer to another. -/
def offered : Nat := offersTo other (framesTo listener transcript)

/-- How often a connection is told that another has joined. -/
def announced : Nat := arrivalsOf other (framesTo listener transcript)

/-- How often a connection is told that another has left. -/
def parted : Nat := departuresOf other (framesTo listener transcript)

variable (step : Event × List (Effect Number))

theorem framesTo_snoc :
    framesTo listener (transcript ++ [step]) =
      framesTo listener transcript ++ framesIn listener step.2 := by
  simp [framesTo]

theorem offered_snoc :
    offered listener other (transcript ++ [step]) =
      offered listener other transcript + offersTo other (framesIn listener step.2) := by
  simp [offered, offersTo, framesTo_snoc]

theorem announced_snoc :
    announced listener other (transcript ++ [step]) =
      announced listener other transcript + arrivalsOf other (framesIn listener step.2) := by
  simp [announced, arrivalsOf, framesTo_snoc]

theorem parted_snoc :
    parted listener other (transcript ++ [step]) =
      parted listener other transcript + departuresOf other (framesIn listener step.2) := by
  simp [parted, departuresOf, framesTo_snoc]

end Counting

/-! ## What one step sends -/

/-- Every open connection can be sent to. -/
def AllOpen (server : WebServer) : Prop :=
  ∀ connection ws, server.sockets.lookup connection = some ws → ws.isOpen = true

theorem framesIn_append (connection : ConnectionNumber) (first second : List (Effect Number)) :
    framesIn connection (first ++ second) =
      framesIn connection first ++ framesIn connection second :=
  List.filterMap_append

theorem framesIn_send {server : WebServer} (allOpen : AllOpen server)
    (connection target : ConnectionNumber) (frame : Frame Number) :
    framesIn connection (server.send target frame) =
      if target = connection ∧ (server.sockets.lookup connection).isSome then [frame] else [] := by
  by_cases same : target = connection
  · subst same
    rcases send_cases server target frame with ⟨sent, ws, found, _⟩ | ⟨dropped, closed⟩
    · simp [sent, found, framesIn, Effect.frameTo]
    · cases found : server.sockets.lookup target with
      | none => simp [dropped, framesIn]
      | some ws =>
          have opened := allOpen target ws found
          rw [closed ws found] at opened
          cases opened
  · rcases send_cases server target frame with ⟨sent, _⟩ | ⟨dropped, _⟩
    · simp [sent, framesIn, Effect.frameTo, same]
    · simp [dropped, framesIn, same]

/-- A notice to the peers of a map reaches those that are open, each once. -/
theorem framesIn_notices {server : WebServer} (allOpen : AllOpen server)
    {peers : InsertionMap String ConnectionNumber}
    (keyed : ∀ id connection, peers.lookup id = some connection → id = toString connection)
    (listener : ConnectionNumber) (frame : Frame Number) :
    framesIn listener ((UnorderedMap.pairs peers).flatMap fun peer => server.send peer.2 frame) =
      if peers.lookup (toString listener) = some listener ∧
        (server.sockets.lookup listener).isSome then [frame] else [] := by
  rw [framesIn, List.filterMap_flatMap]
  change ((UnorderedMap.pairs peers).flatMap fun peer =>
    framesIn listener (server.send peer.2 frame)) = _
  rw [UnorderedMap.flatMap_pairs (toString listener)]
  · cases found : peers.lookup (toString listener) with
    | none => simp
    | some connection =>
        have own : connection = listener := (Nat.repr_injective (keyed _ _ found)).symm
        simp [framesIn_send allOpen, own]
  · intro pair member different
    rw [framesIn_send allOpen]
    apply if_neg
    intro both
    have named := keyed pair.1 pair.2 (UnorderedMap.mem_pairs.mp member)
    rw [both.1] at named
    exact different named

/-! ## Orderly runs -/

/-- A connection that is in a room does not join again, and no socket starts to
close ahead of its `close` event. -/
def Orderly (engine : ScriptEngine Number) (server : WebServer) : Event → Prop
  | .message connection raw => ∀ ws room, server.sockets.lookup connection = some ws →
      namedRoom engine raw = some room → ws.room = none
  | .closing _ => False
  | _ => True

theorem Orderly.staysPut {engine : ScriptEngine Number} {server : WebServer} {event : Event}
    (orderly : Orderly engine server event) : StaysPut engine server event := by
  cases event with
  | message connection raw =>
      intro ws old room found inRoom named
      rw [orderly ws room found named] at inRoom
      cases inRoom
  | closing connection => exact absurd orderly id
  | connection => trivial
  | close connection => trivial

/-- What an orderly run keeps. -/
structure InOrder (server : WebServer) (transcript : List (Event × List (Effect Number))) :
    Prop where
  tracked : Tracked server transcript
  settled : RoomsExact server transcript
  allOpen : AllOpen server

theorem InOrder.step {engine : ScriptEngine Number} {server next : WebServer} {event : Event}
    {effects : List (Effect Number)} {transcript : List (Event × List (Effect Number))}
    (inOrder : InOrder server transcript) (change : Change engine server event next effects)
    (orderly : Orderly engine server event) :
    InOrder next (transcript ++ [(event, effects)]) := by
  refine ⟨inOrder.tracked.step change,
    ((exact_step_iff inOrder.tracked inOrder.settled change).mpr orderly.staysPut).1, ?_⟩
  have allOpen := inOrder.allOpen
  cases change with
  | connected running =>
      intro connection ws present
      simp only [onConnection, UnorderedMap.lookup_insert_eq] at present
      split at present
      · cases present
        rfl
      · exact allOpen connection ws present
  | @joined sender raw ws room found named =>
      intro connection other present
      simp only [join, UnorderedMap.lookup_insert_eq] at present
      split at present
      · cases present
        exact allOpen sender ws found
      · exact allOpen connection other present
  | relayed found unnamed inside listed => exact allOpen
  | threw unnamed =>
      intro connection ws present
      simp [terminated] at present
  | closing found => exact absurd orderly id
  | @closed target ws found =>
      intro connection other present
      rw [sockets_onClose, UnorderedMap.lookup_erase_eq] at present
      split at present
      · cases present
      · exact allOpen connection other present
  | ignored unnamed => exact allOpen

/-- An entry of a room is that of its own connection, which is open and named the
room last. -/
theorem InOrder.entry_eq {server : WebServer} {transcript : List (Event × List (Effect Number))}
    (inOrder : InOrder server transcript) {room id : String} {connection : ConnectionNumber}
    (held : server.entry room id = some connection) :
    id = toString connection ∧ (server.sockets.lookup connection).isSome ∧
      latestRoom connection transcript = some room :=
  ⟨(inOrder.tracked.keyed room id connection held).1,
    (inOrder.settled room connection).mp ⟨id, held⟩⟩

theorem InOrder.not_entry {server : WebServer} {transcript : List (Event × List (Effect Number))}
    (inOrder : InOrder server transcript) {connection : ConnectionNumber}
    (unjoined : latestRoom connection transcript = none) (room id : String) :
    server.entry room id ≠ some connection := by
  intro held
  have named := (inOrder.entry_eq held).2.2
  rw [unjoined] at named
  cases named

theorem framesIn_join {server : WebServer} {transcript : List (Event × List (Effect Number))}
    (inOrder : InOrder server transcript) {sender : ConnectionNumber} {ws : Socket} (room : String)
    (found : server.sockets.lookup sender = some ws) (listener : ConnectionNumber) :
    framesIn listener (server.join sender ws room : _ × List (Effect Number)).2 =
      (if sender = listener then [.joined ws.id ((server.rooms.lookup room).getD ∅).keys]
        else []) ++
        if server.entry room (toString listener) = some listener then [.peerJoined ws.id]
        else [] := by
  have keyed : ∀ id connection, ((server.rooms.lookup room).getD ∅).lookup id = some connection →
      id = toString connection := by
    intro id connection held
    apply (inOrder.tracked.keyed room id connection ?_).1
    rw [entry]
    cases present : server.rooms.lookup room with
    | none => simp [present] at held
    | some peers => simpa [present] using held
  have looked : ((server.rooms.lookup room).getD ∅).lookup (toString listener) =
      server.entry room (toString listener) := by
    rw [entry]
    cases server.rooms.lookup room with
    | none => exact AList.lookup_empty _
    | some peers => rfl
  simp only [join]
  rw [framesIn_append, framesIn_append, framesIn_send inOrder.allOpen,
    framesIn_notices inOrder.allOpen keyed, looked]
  have logged : framesIn listener [(.logJoined room ws.id (UnorderedMap.size
      (((server.rooms.lookup room).getD ∅).set ws.id sender)) : Effect Number)] = [] := rfl
  rw [logged, List.append_nil]
  congr 1
  · by_cases same : sender = listener
    · rw [← same]
      simp [found]
    · simp [same]
  · by_cases held : server.entry room (toString listener) = some listener
    · rw [if_pos ⟨held, (inOrder.entry_eq held).2.1⟩, if_pos held]
    · rw [if_neg fun both => held both.1, if_neg held]

theorem framesIn_onClose {server : WebServer} {transcript : List (Event × List (Effect Number))}
    (inOrder : InOrder server transcript) {target : ConnectionNumber} {ws : Socket}
    (found : server.sockets.lookup target = some ws) (listener : ConnectionNumber) :
    framesIn listener (server.onClose target ws : _ × List (Effect Number)).2 =
      if listener ≠ target ∧
        (ws.room.bind fun room => server.entry room (toString listener)) = some listener then
          [.peerLeft ws.id]
      else [] := by
  have sound := inOrder.tracked.identified target ws found
  rw [onClose]
  cases home : ws.room with
  | none => simp [framesIn]
  | some room =>
      dsimp only [Option.bind_some]
      cases present : server.rooms.lookup room with
      | none => simp [framesIn, entry, present]
      | some peers =>
          dsimp only
          have keyed : ∀ id connection, (peers.erase ws.id).lookup id = some connection →
              id = toString connection := by
            intro id connection held
            rw [UnorderedMap.lookup_erase_eq] at held
            split at held
            · cases held
            · apply (inOrder.tracked.keyed room id connection _).1
              rw [entry, present]
              exact held
          have allOpen : AllOpen { server with sockets := server.sockets.erase target } := by
            intro connection other opened
            rw [UnorderedMap.lookup_erase_eq] at opened
            split at opened
            · cases opened
            · exact inOrder.allOpen connection other opened
          have logged : framesIn listener [(.logLeft room ws.id : Effect Number)] = [] := rfl
          have looked : server.entry room (toString listener) =
              peers.lookup (toString listener) := by
            rw [entry, present]
            rfl
          rw [framesIn_append, framesIn_notices allOpen keyed, logged, List.append_nil,
            UnorderedMap.lookup_erase_eq, UnorderedMap.lookup_erase_eq, sound.1, ← looked]
          by_cases same : listener = target
          · subst same
            simp
          · have other : toString listener ≠ toString target := fun equal =>
              same (Nat.repr_injective equal)
            rw [if_neg other, if_neg same]
            by_cases held : server.entry room (toString listener) = some listener
            · rw [if_pos ⟨held, (inOrder.entry_eq held).2.1⟩, if_pos ⟨same, held⟩]
            · rw [if_neg fun both => held both.1, if_neg fun both => held both.2]

/-! ## Introductions -/

/-- The frames that introduce nobody: those of a step that is no join. -/
def Introduces (effects : List (Effect Number)) : Prop :=
  ∃ target frame, .send target frame ∈ effects ∧
    ((∃ id peers, frame = .joined id peers) ∨ ∃ id, frame = .peerJoined id)

theorem mem_framesIn {connection : ConnectionNumber} {effects : List (Effect Number)}
    {frame : Frame Number} (member : frame ∈ framesIn connection effects) :
    .send connection frame ∈ effects := by
  rcases List.mem_filterMap.mp member with ⟨effect, inside, selected⟩
  cases effect with
  | send target sent =>
      simp only [Effect.frameTo] at selected
      split at selected
      · rename_i same
        cases selected
        rw [← same]
        exact inside
      · cases selected
  | logJoined room id total => cases selected
  | logLeft room id => cases selected
  | threw error => cases selected

theorem introduces_nobody {effects : List (Effect Number)} (none : ¬ Introduces effects)
    (listener other : ConnectionNumber) :
    offersTo other (framesIn listener effects) = 0 ∧
      arrivalsOf other (framesIn listener effects) = 0 := by
  constructor
  · apply List.count_eq_zero.mpr
    intro member
    rcases List.mem_flatMap.mp member with ⟨frame, inside, listed⟩
    cases frame with
    | joined id peers => exact none ⟨_, _, mem_framesIn inside, .inl ⟨id, peers, rfl⟩⟩
    | _ => cases listed
  · apply List.countP_eq_zero.mpr
    intro frame inside told
    cases frame with
    | peerJoined id => exact none ⟨_, _, mem_framesIn inside, .inr ⟨id, rfl⟩⟩
    | _ => cases told

/-- A step in which somebody joins a room for the first time, or nobody is
introduced and no room gets a new entry. -/
theorem step_introductions {engine : ScriptEngine Number} {server next : WebServer} {event : Event}
    {effects : List (Effect Number)} (change : Change engine server event next effects)
    (orderly : Orderly engine server event) :
    (∃ sender raw ws room, event = .message sender raw ∧ server.sockets.lookup sender = some ws ∧
        ws.room = none ∧ next = (server.join sender ws room : _ × List (Effect Number)).1 ∧
        effects = (server.join sender ws room).2) ∨
      ¬ Introduces effects ∧ (∀ connection, joinedBy connection (event, effects) = none) ∧
        ∀ room id connection, next.entry room id = some connection →
          server.entry room id = some connection := by
  cases change with
  | connected running =>
      right
      refine ⟨?_, fun _ => rfl, fun _ _ _ held => held⟩
      intro introduces
      rcases introduces with ⟨_, _, sent, _⟩
      cases sent
  | @joined sender raw ws room found named =>
      exact .inl ⟨sender, raw, ws, room, rfl, found, orderly ws room found named, rfl, rfl⟩
  | relayed found unnamed inside listed =>
      right
      refine ⟨?_, fun _ => by simp [joinedBy, Effect.joinedRoom], fun _ _ _ held => held⟩
      intro introduces
      rcases introduces with ⟨_, _, sent, ⟨_, _, same⟩ | ⟨_, same⟩⟩
      · rw [same] at sent
        cases List.mem_singleton.mp sent
      · rw [same] at sent
        cases List.mem_singleton.mp sent
  | threw unnamed =>
      right
      refine ⟨?_, fun _ => by simp [joinedBy, Effect.joinedRoom], ?_⟩
      · intro introduces
        rcases introduces with ⟨_, _, sent, _⟩
        cases List.mem_singleton.mp sent
      · intro _ _ _ held
        simp [entry, terminated] at held
  | closing found => exact absurd orderly id
  | @closed target ws found =>
      right
      refine ⟨?_, fun _ => rfl, ?_⟩
      · intro introduces
        rcases introduces with ⟨_, _, sent, kind⟩
        rcases mem_onClose sent with ⟨_, same⟩ | ⟨_, same⟩
        · cases same
          rcases kind with ⟨_, _, same⟩ | ⟨_, same⟩ <;> cases same
        · cases same
      · intro _ _ _ held
        rw [entry_onClose] at held
        split at held
        · cases held
        · exact held
  | ignored unnamed =>
      right
      refine ⟨?_, fun _ => by cases event <;> simp [joinedBy], fun _ _ _ held => held⟩
      intro introduces
      rcases introduces with ⟨_, _, sent, _⟩
      cases sent

section Join

variable {server : WebServer} {transcript : List (Event × List (Effect Number))}
  {sender : ConnectionNumber} {ws : Socket} {room : String}

theorem join_offers (inOrder : InOrder server transcript)
    (found : server.sockets.lookup sender = some ws) (listener other : ConnectionNumber) :
    offersTo other (framesIn listener
        (server.join sender ws room : _ × List (Effect Number)).2) =
      if sender = listener ∧ server.entry room (toString other) = some other then 1 else 0 := by
  rw [framesIn_join inOrder room found]
  have notices : (if server.entry room (toString listener) = some listener then
      [(.peerJoined ws.id : Frame Number)] else []).flatMap Frame.offers = [] := by
    split <;> rfl
  rw [offersTo, List.flatMap_append, notices, List.append_nil]
  by_cases own : sender = listener
  · have listed : toString other ∈ ((server.rooms.lookup room).getD ∅).keys ↔
        server.entry room (toString other) = some other := by
      rw [mem_listed]
      constructor
      · intro held
        rcases held with ⟨connection, held⟩
        have same := Nat.repr_injective (inOrder.entry_eq held).1
        rw [same] at held ⊢
        exact held
      · exact fun held => ⟨other, held⟩
    rw [if_pos own, List.flatMap_singleton, Frame.offers]
    by_cases held : server.entry room (toString other) = some other
    · rw [if_pos ⟨own, held⟩]
      exact List.count_eq_one_of_mem (AList.keys_nodup _) (listed.mpr held)
    · rw [if_neg fun both => held both.2]
      exact List.count_eq_zero.mpr fun member => held (listed.mp member)
  · rw [if_neg own, if_neg fun both => own both.1]
    rfl

theorem join_arrivals (inOrder : InOrder server transcript)
    (found : server.sockets.lookup sender = some ws) (listener other : ConnectionNumber) :
    arrivalsOf other (framesIn listener
        (server.join sender ws room : _ × List (Effect Number)).2) =
      if sender = other ∧ server.entry room (toString listener) = some listener then 1 else 0 := by
  have sound := inOrder.tracked.identified sender ws found
  rw [framesIn_join inOrder room found, arrivalsOf, List.countP_append, sound.1]
  have reply : (if sender = listener then
      [(.joined (toString sender) ((server.rooms.lookup room).getD ∅).keys : Frame Number)]
        else []).countP (Frame.isPeerJoined (toString other)) = 0 := by
    split <;> rfl
  rw [reply, Nat.zero_add]
  by_cases held : server.entry room (toString listener) = some listener
  · rw [if_pos held]
    by_cases own : sender = other
    · rw [if_pos ⟨own, held⟩, own]
      simp [Frame.isPeerJoined]
    · have different : toString sender ≠ toString other := fun same => own (Nat.repr_injective same)
      rw [if_neg fun both => own both.1, List.countP_singleton, Frame.isPeerJoined,
        decide_eq_false different]
      rfl
  · rw [if_neg held, if_neg fun both => held both.2]
    rfl

end Join

/-- Some effects say nothing of two connections to each other. -/
structure Silent (first second : ConnectionNumber) (effects : List (Effect Number)) : Prop where
  offers : offersTo second (framesIn first effects) = 0
  offersBack : offersTo first (framesIn second effects) = 0
  arrivals : arrivalsOf second (framesIn first effects) = 0
  arrivalsBack : arrivalsOf first (framesIn second effects) = 0

theorem Silent.symm {first second : ConnectionNumber} {effects : List (Effect Number)}
    (silent : Silent first second effects) : Silent second first effects :=
  ⟨silent.offersBack, silent.offers, silent.arrivalsBack, silent.arrivals⟩

theorem silent_of_not_introduces {effects : List (Effect Number)} (none : ¬ Introduces effects)
    (first second : ConnectionNumber) : Silent first second effects :=
  ⟨(introduces_nobody none first second).1, (introduces_nobody none second first).1,
    (introduces_nobody none first second).2, (introduces_nobody none second first).2⟩

/-- There was a moment when one connection had joined and the other had not. -/
def JoinedFirst (earlier later : ConnectionNumber)
    (transcript : List (Event × List (Effect Number))) : Prop :=
  ∃ before after, transcript = before ++ after ∧ latestRoom earlier before ≠ none ∧
    latestRoom later before = none

/-- The later joiner offers to the earlier one, once, and the earlier one has been
told of it, once. -/
structure Introduced (earlier later : ConnectionNumber)
    (moment whole : List (Event × List (Effect Number))) : Prop where
  joinedFirst : JoinedFirst earlier later moment
  offers : offered later earlier whole = 1
  waits : offered earlier later whole = 0
  told : announced earlier later whole = 1
  untold : announced later earlier whole = 0

section Introduced

variable {earlier later : ConnectionNumber} {moment whole : List (Event × List (Effect Number))}
  {step : Event × List (Effect Number)}

theorem Introduced.extend (introduced : Introduced earlier later moment whole)
    (silent : Silent earlier later step.2) : Introduced earlier later moment (whole ++ [step]) := by
  refine ⟨introduced.joinedFirst, ?_, ?_, ?_, ?_⟩
  · rw [offered_snoc, introduced.offers, silent.offersBack]
  · rw [offered_snoc, introduced.waits, silent.offers]
  · rw [announced_snoc, introduced.told, silent.arrivals]
  · rw [announced_snoc, introduced.untold, silent.arrivalsBack]

theorem Introduced.still (introduced : Introduced earlier later moment whole) :
    Introduced earlier later (moment ++ [step]) whole := by
  rcases introduced.joinedFirst with ⟨before, after, split, joined, notYet⟩
  refine ⟨⟨before, after ++ [step], ?_, joined, notYet⟩, introduced.offers, introduced.waits,
    introduced.told, introduced.untold⟩
  rw [split, List.append_assoc]

end Introduced

/-- Every two members of a room have been introduced, and one that has not joined
yet knows nobody and is known to nobody. -/
structure Acquainted (server : WebServer) (transcript : List (Event × List (Effect Number))) :
    Prop where
  strangers : ∀ first second, first ≠ second → latestRoom second transcript = none →
    offered first second transcript = 0 ∧ offered second first transcript = 0 ∧
      announced first second transcript = 0 ∧ announced second first transcript = 0
  members : ∀ room first second, first ≠ second →
    server.entry room (toString first) = some first →
    server.entry room (toString second) = some second →
      Introduced first second transcript transcript ∨ Introduced second first transcript transcript

section Join

variable {server : WebServer} {transcript : List (Event × List (Effect Number))}
  {sender : ConnectionNumber} {ws : Socket} {room : String}

variable (room) in
theorem join_silent (inOrder : InOrder server transcript)
    (found : server.sockets.lookup sender = some ws) (first second : ConnectionNumber)
    (firstOther : sender ≠ first ∨ server.entry room (toString second) ≠ some second)
    (secondOther : sender ≠ second ∨ server.entry room (toString first) ≠ some first) :
    Silent first second (server.join sender ws room : _ × List (Effect Number)).2 := by
  have noFirst : ¬ (sender = first ∧ server.entry room (toString second) = some second) := by
    intro both
    rcases firstOther with other | other
    · exact other both.1
    · exact other both.2
  have noSecond : ¬ (sender = second ∧ server.entry room (toString first) = some first) := by
    intro both
    rcases secondOther with other | other
    · exact other both.1
    · exact other both.2
  refine ⟨?_, ?_, ?_, ?_⟩
  · rw [join_offers inOrder found, if_neg noFirst]
  · rw [join_offers inOrder found, if_neg noSecond]
  · rw [join_arrivals inOrder found, if_neg noSecond]
  · rw [join_arrivals inOrder found, if_neg noFirst]

/-- A connection that joins for the first time is introduced to each member. -/
theorem join_introduces (inOrder : InOrder server transcript)
    (acquainted : Acquainted server transcript) (found : server.sockets.lookup sender = some ws)
    (fresh : latestRoom sender transcript = none) (raw : Bytes) {member : ConnectionNumber}
    (held : server.entry room (toString member) = some member) :
    Introduced member sender
      (transcript ++ [(.message sender raw, (server.join sender ws room).2)])
      (transcript ++ [(.message sender raw, (server.join sender ws room).2)]) := by
  have joined := (inOrder.entry_eq held).2.2
  have different : member ≠ sender := by
    intro same
    rw [same, fresh] at joined
    cases joined
  have outside := inOrder.not_entry fresh room (toString sender)
  rcases acquainted.strangers member sender different fresh with ⟨waits, offers, told, untold⟩
  refine ⟨⟨transcript, _, rfl, ?_, fresh⟩, ?_, ?_, ?_, ?_⟩
  · rw [joined]
    exact Option.some_ne_none room
  · rw [offered_snoc, offers, join_offers inOrder found, if_pos ⟨rfl, held⟩]
  · rw [offered_snoc, waits, join_offers inOrder found, if_neg fun both => outside both.2]
  · rw [announced_snoc, told, join_arrivals inOrder found, if_pos ⟨rfl, held⟩]
  · rw [announced_snoc, untold, join_arrivals inOrder found, if_neg fun both => outside both.2]

theorem Acquainted.join (inOrder : InOrder server transcript)
    (acquainted : Acquainted server transcript) (found : server.sockets.lookup sender = some ws)
    (fresh : ws.room = none) (raw : Bytes) :
    Acquainted (server.join sender ws room : _ × List (Effect Number)).1
      (transcript ++ [(.message sender raw, (server.join sender ws room).2)]) := by
  have sound := inOrder.tracked.identified sender ws found
  have unjoined : latestRoom sender transcript = none := by
    rw [← sound.2.2, fresh]
  -- an entry after the join is the newcomer's, or was there before
  have entries : ∀ {other : String} {connection : ConnectionNumber},
      (server.join sender ws room : _ × List (Effect Number)).1.entry other (toString connection) =
        some connection →
      connection = sender ∧ other = room ∨
        connection ≠ sender ∧ server.entry other (toString connection) = some connection := by
    intro other connection held
    rw [entry_join] at held
    split at held
    · rename_i here
      cases held
      exact .inl ⟨rfl, here.1⟩
    · right
      refine ⟨?_, held⟩
      intro same
      rw [same] at held
      exact inOrder.not_entry unjoined other (toString sender) held
  constructor
  · intro first second different outside
    rw [latestRoom_snoc, joinedBy_join] at outside
    split at outside
    · cases outside
    · rename_i other
      rw [Option.none_or] at outside
      rcases acquainted.strangers first second different outside with
        ⟨offers, offersBack, told, toldBack⟩
      have absent := inOrder.not_entry outside room (toString second)
      have silent := join_silent room inOrder found first second (.inr absent) (.inl other)
      refine ⟨?_, ?_, ?_, ?_⟩
      · rw [offered_snoc, offers, silent.offers]
      · rw [offered_snoc, offersBack, silent.offersBack]
      · rw [announced_snoc, told, silent.arrivals]
      · rw [announced_snoc, toldBack, silent.arrivalsBack]
  · intro other first second different firstHeld secondHeld
    rcases entries firstHeld with ⟨firstNew, here⟩ | ⟨firstOld, firstBefore⟩
    · rcases entries secondHeld with ⟨secondNew, _⟩ | ⟨_, secondBefore⟩
      · exact absurd (firstNew.trans secondNew.symm) different
      · right
        rw [here] at secondBefore
        rw [firstNew]
        exact join_introduces inOrder acquainted found unjoined raw secondBefore
    · rcases entries secondHeld with ⟨secondNew, here⟩ | ⟨secondOld, secondBefore⟩
      · left
        rw [here] at firstBefore
        rw [secondNew]
        exact join_introduces inOrder acquainted found unjoined raw firstBefore
      · have silent := join_silent room inOrder found first second (.inl (Ne.symm firstOld))
          (.inl (Ne.symm secondOld))
        rcases acquainted.members other first second different firstBefore secondBefore with
          introduced | introduced
        · exact .inl (introduced.extend silent).still
        · exact .inr (introduced.extend silent.symm).still

end Join

theorem Acquainted.step {engine : ScriptEngine Number} {server next : WebServer} {event : Event}
    {effects : List (Effect Number)} {transcript : List (Event × List (Effect Number))}
    (inOrder : InOrder server transcript) (acquainted : Acquainted server transcript)
    (change : Change engine server event next effects) (orderly : Orderly engine server event) :
    Acquainted next (transcript ++ [(event, effects)]) := by
  rcases step_introductions change orderly with
    ⟨sender, raw, ws, room, message, found, fresh, joined, sends⟩ | ⟨nobody, unjoined, entries⟩
  · rw [message, joined, sends]
    exact acquainted.join inOrder found fresh raw
  · have silent := silent_of_not_introduces nobody
    constructor
    · intro first second different outside
      rw [latestRoom_snoc, unjoined, Option.none_or] at outside
      rcases acquainted.strangers first second different outside with
        ⟨offers, offersBack, told, toldBack⟩
      refine ⟨?_, ?_, ?_, ?_⟩
      · rw [offered_snoc, offers, (silent first second).offers]
      · rw [offered_snoc, offersBack, (silent first second).offersBack]
      · rw [announced_snoc, told, (silent first second).arrivals]
      · rw [announced_snoc, toldBack, (silent first second).arrivalsBack]
    · intro room first second different firstHeld secondHeld
      rcases acquainted.members room first second different (entries _ _ _ firstHeld)
        (entries _ _ _ secondHeld) with introduced | introduced
      · exact .inl (introduced.extend (silent first second)).still
      · exact .inr (introduced.extend (silent second first)).still

theorem latestRoom_lasts {connection : ConnectionNumber}
    {transcript : List (Event × List (Effect Number))} {step : Event × List (Effect Number)}
    (joined : latestRoom connection transcript ≠ none) :
    latestRoom connection (transcript ++ [step]) ≠ none := by
  rw [latestRoom_snoc]
  cases joinedBy connection step with
  | none => exact joined
  | some room => exact Option.some_ne_none room

/-- Two connections that have joined are introduced no further. -/
theorem silent_of_joined {engine : ScriptEngine Number} {server next : WebServer} {event : Event}
    {effects : List (Effect Number)} {transcript : List (Event × List (Effect Number))}
    (inOrder : InOrder server transcript) (change : Change engine server event next effects)
    (orderly : Orderly engine server event) {first second : ConnectionNumber}
    (firstJoined : latestRoom first transcript ≠ none)
    (secondJoined : latestRoom second transcript ≠ none) : Silent first second effects := by
  rcases step_introductions change orderly with
    ⟨sender, raw, ws, room, _, found, fresh, _, sends⟩ | ⟨nobody, _, _⟩
  · have unjoined : latestRoom sender transcript = none := by
      rw [← (inOrder.tracked.identified sender ws found).2.2, fresh]
    have other : ∀ {connection}, latestRoom connection transcript ≠ none → sender ≠ connection := by
      intro connection joined same
      rw [same] at unjoined
      exact joined unjoined
    rw [sends]
    exact join_silent room inOrder found first second (.inl (other firstJoined))
      (.inl (other secondJoined))
  · exact silent_of_not_introduces nobody first second

/-! ## Departures -/

/-- A connection that is open, or whose number has not been given out. -/
def Present (server : WebServer) (connection : ConnectionNumber) : Prop :=
  (server.sockets.lookup connection).isSome ∨ server.nextId ≤ connection

theorem present_before {engine : ScriptEngine Number} {server next : WebServer} {event : Event}
    {effects : List (Effect Number)} (change : Change engine server event next effects)
    {connection : ConnectionNumber} (present : Present next connection) :
    Present server connection := by
  cases change with
  | connected running =>
      rcases present with opened | unborn
      · simp only [onConnection, UnorderedMap.lookup_insert_eq] at opened
        split at opened
        · rename_i newest
          exact .inr (Nat.le_of_eq newest.symm)
        · exact .inl opened
      · exact .inr (Nat.le_of_succ_le unborn)
  | @joined sender raw ws room found named =>
      rcases present with opened | unborn
      · left
        simp only [join, UnorderedMap.lookup_insert_eq] at opened
        split at opened
        · rename_i same
          rw [same, found]
          rfl
        · exact opened
      · exact .inr unborn
  | relayed found unnamed inside listed => exact present
  | threw unnamed =>
      rcases present with opened | unborn
      · simp [terminated] at opened
      · exact .inr unborn
  | @closing target ws found =>
      rcases present with opened | unborn
      · left
        simp only [UnorderedMap.lookup_insert_eq] at opened
        split at opened
        · rename_i same
          rw [same, found]
          rfl
        · exact opened
      · exact .inr unborn
  | @closed target ws found =>
      rcases present with opened | unborn
      · left
        rw [sockets_onClose, UnorderedMap.lookup_erase_eq] at opened
        split at opened
        · cases opened
        · exact opened
      · rw [nextId_onClose] at unborn
        exact .inr unborn
  | ignored unnamed => exact present

theorem not_present_onClose {server : WebServer}
    {transcript : List (Event × List (Effect Number))} (tracked : Tracked server transcript)
    {leaver : ConnectionNumber} {ws : Socket} (found : server.sockets.lookup leaver = some ws) :
    ¬ Present (server.onClose leaver ws : _ × List (Effect Number)).1 leaver := by
  have sound := tracked.identified leaver ws found
  intro present
  rcases present with opened | unborn
  · rw [sockets_onClose, UnorderedMap.lookup_erase_eq, if_pos rfl] at opened
    cases opened
  · rw [nextId_onClose] at unborn
    exact absurd unborn (Nat.not_le_of_lt sound.2.1)

/-- A connection whose close was handled does not come back. -/
theorem not_present_closed {engine : ScriptEngine Number} {server : WebServer}
    {transcript : List (Event × List (Effect Number))} (inOrder : InOrder server transcript)
    {leaver : ConnectionNumber} {ws : Socket} (found : server.sockets.lookup leaver = some ws) :
    ¬ Present ((machine engine).next server (.close leaver)) leaver := by
  have closed : (machine engine).next server (.close leaver) =
      (server.onClose leaver ws : _ × List (Effect Number)).1 := by
    change (step engine server (.close leaver)).1 = _
    rw [step, found]
  rw [closed]
  exact not_present_onClose inOrder.tracked found

/-- Only the close of an open connection tells of its departure. -/
theorem departures_eq_zero {engine : ScriptEngine Number} {server next : WebServer} {event : Event}
    {effects : List (Effect Number)} {transcript : List (Event × List (Effect Number))}
    (inOrder : InOrder server transcript) (change : Change engine server event next effects)
    {leaver : ConnectionNumber}
    (stays : event = .close leaver → server.sockets.lookup leaver = none)
    (listener : ConnectionNumber) : departuresOf leaver (framesIn listener effects) = 0 := by
  apply List.countP_eq_zero.mpr
  intro frame inside told
  have sent := mem_framesIn inside
  cases frame with
  | peerLeft id =>
      have named : id = toString leaver := of_decide_eq_true told
      cases change with
      | joined found isJoin =>
          rcases mem_join.mp sent with reply | notice | log
          · cases (mem_send reply).1
          · rcases mem_notices notice with ⟨_, _, same⟩
            cases same
          · cases log
      | relayed found unnamed inside listed => cases List.mem_singleton.mp sent
      | threw unnamed => cases List.mem_singleton.mp sent
      | @closed target ws found =>
          rcases mem_onClose sent with ⟨_, same⟩ | ⟨_, same⟩
          · cases same
            have sound := inOrder.tracked.identified target ws found
            rw [sound.1] at named
            have same := Nat.repr_injective named
            rw [same] at found stays
            rw [stays rfl] at found
            cases found
          · cases same
      | connected running => cases sent
      | closing found => cases sent
      | ignored unnamed => cases sent
  | _ => cases told

/-- Each other member of the room is told of a departure, once. -/
theorem departures_close {server : WebServer} {transcript : List (Event × List (Effect Number))}
    (inOrder : InOrder server transcript) {leaver member : ConnectionNumber} {ws : Socket}
    (found : server.sockets.lookup leaver = some ws) {room : String} (home : ws.room = some room)
    (held : server.entry room (toString member) = some member) (different : member ≠ leaver) :
    departuresOf leaver (framesIn member
      (server.onClose leaver ws : _ × List (Effect Number)).2) = 1 := by
  have sound := inOrder.tracked.identified leaver ws found
  rw [framesIn_onClose inOrder found, home, Option.bind_some, if_pos ⟨different, held⟩, sound.1]
  simp [departuresOf, Frame.isPeerLeft]

/-! ## Whole runs -/

section Run

variable {engine : ScriptEngine Number} {events : List Event}

theorem inOrder_run (orderly : (machine engine).EveryStep (Orderly engine) events) :
    InOrder ((machine engine).run events) ((machine engine).transcript events) ∧
      Acquainted ((machine engine).run events) ((machine engine).transcript events) ∧
      ∀ connection, Present ((machine engine).run events) connection →
        ∀ listener, parted listener connection ((machine engine).transcript events) = 0 := by
  have initially : InOrder (create) ([] : List (Event × List (Effect Number))) ∧
      Acquainted create ([] : List (Event × List (Effect Number))) ∧
      ∀ connection, Present create connection →
        ∀ listener, parted listener connection ([] : List (Event × List (Effect Number))) = 0 := by
    refine ⟨⟨tracked_run engine [], ?_, ?_⟩, ⟨fun _ _ _ _ => ⟨rfl, rfl, rfl, rfl⟩, ?_⟩,
      fun _ _ _ => rfl⟩
    · simp [RoomsExact, create, entry]
    · simp [AllOpen, create]
    · simp [create, entry]
  apply @Machine.lasting _ _ _ (machine engine) (fun past server =>
    InOrder server ((machine engine).transcript past) ∧
      Acquainted server ((machine engine).transcript past) ∧
      ∀ connection, Present server connection →
        ∀ listener, parted listener connection ((machine engine).transcript past) = 0)
    (Orderly engine) [] events orderly initially
  intro past event holds allowed
  rcases holds with ⟨inOrder, acquainted, nobodyLeft⟩
  have change := step_change engine ((machine engine).run past) event
  rw [Machine.transcript_snoc]
  refine ⟨inOrder.step change allowed, acquainted.step inOrder change allowed, ?_⟩
  intro connection present listener
  have before := nobodyLeft connection (present_before change present) listener
  have quiet : departuresOf connection (framesIn listener
      ((machine engine).output ((machine engine).run past) event)) = 0 := by
    apply departures_eq_zero inOrder change
    intro closes
    cases found : ((machine engine).run past).sockets.lookup connection with
    | none => rfl
    | some ws =>
        rw [closes] at present
        exact absurd present (not_present_closed inOrder found)
  rw [parted_snoc, before, quiet]

/-- Two members of a room stay introduced as they were. -/
theorem introduced_lasts {past : List Event}
    (orderly : (machine engine).EveryStep (Orderly engine) events) (isPrefix : past <+: events)
    {room : String} {first second : ConnectionNumber} (different : first ≠ second)
    (firstInside : ∃ id, ((machine engine).run past).entry room id = some first)
    (secondInside : ∃ id, ((machine engine).run past).entry room id = some second) :
    Introduced first second ((machine engine).transcript past)
        ((machine engine).transcript events) ∨
      Introduced second first ((machine engine).transcript past)
        ((machine engine).transcript events) := by
  rcases isPrefix with ⟨future, split⟩
  rw [← split] at orderly ⊢
  rcases inOrder_run (orderly.restrict (List.prefix_append past future)) with
    ⟨inOrder, acquainted, _⟩
  rcases firstInside with ⟨firstId, firstHeld⟩
  rcases secondInside with ⟨secondId, secondHeld⟩
  have firstNamed := inOrder.entry_eq firstHeld
  have secondNamed := inOrder.entry_eq secondHeld
  rw [firstNamed.1] at firstHeld
  rw [secondNamed.1] at secondHeld
  have lasts := @Machine.lasting _ _ _ (machine engine) (fun history server =>
      InOrder server ((machine engine).transcript history) ∧
        (latestRoom first ((machine engine).transcript history) ≠ none ∧
          latestRoom second ((machine engine).transcript history) ≠ none) ∧
        (Introduced first second ((machine engine).transcript past)
            ((machine engine).transcript history) ∨
          Introduced second first ((machine engine).transcript past)
            ((machine engine).transcript history)))
    (Orderly engine) past future orderly
    ⟨inOrder, ⟨by simp [firstNamed.2.2], by simp [secondNamed.2.2]⟩,
      acquainted.members room first second different firstHeld secondHeld⟩
  apply (lasts _).2.2
  intro history event holds allowed
  rcases holds with ⟨inOrder, ⟨firstJoined, secondJoined⟩, introduced⟩
  have change := step_change engine ((machine engine).run history) event
  have silent := silent_of_joined inOrder change allowed firstJoined secondJoined
  rw [Machine.transcript_snoc]
  refine ⟨inOrder.step change allowed,
    ⟨latestRoom_lasts firstJoined, latestRoom_lasts secondJoined⟩, ?_⟩
  rcases introduced with introduced | introduced
  · exact .inl (introduced.extend silent)
  · exact .inr (introduced.extend silent.symm)

/-- A departure stays told once. -/
theorem parted_lasts {past : List Event} {leaver : ConnectionNumber}
    (orderly : (machine engine).EveryStep (Orderly engine) events)
    (isPrefix : past ++ [.close leaver] <+: events) {room : String} {member : ConnectionNumber}
    (different : member ≠ leaver)
    (leaverInside : ∃ id, ((machine engine).run past).entry room id = some leaver)
    (memberInside : ∃ id, ((machine engine).run past).entry room id = some member) :
    parted member leaver ((machine engine).transcript events) = 1 := by
  rcases isPrefix with ⟨future, split⟩
  rw [← split] at orderly ⊢
  have upTo := orderly.restrict (List.prefix_append (past ++ [.close leaver]) future)
  rcases inOrder_run (Machine.everyStep_snoc.mp upTo).1 with ⟨inOrder, _, nobodyLeft⟩
  rcases leaverInside with ⟨leaverId, leaverHeld⟩
  rcases memberInside with ⟨memberId, memberHeld⟩
  have leaverNamed := inOrder.entry_eq leaverHeld
  have memberNamed := inOrder.entry_eq memberHeld
  rw [memberNamed.1] at memberHeld
  rcases Option.isSome_iff_exists.mp leaverNamed.2.1 with ⟨ws, found⟩
  have home : ws.room = some room := by
    rw [(inOrder.tracked.identified leaver ws found).2.2, leaverNamed.2.2]
  have told : parted member leaver ((machine engine).transcript (past ++ [.close leaver])) = 1 := by
    have sent : (machine engine).output ((machine engine).run past) (.close leaver) =
        (((machine engine).run past).onClose leaver ws).2 := by
      change (step engine _ (.close leaver)).2 = _
      rw [step, found]
    rw [Machine.transcript_snoc, parted_snoc, sent,
      nobodyLeft leaver (.inl leaverNamed.2.1) member,
      departures_close inOrder found home memberHeld different]
  have gone : ¬ Present ((machine engine).run (past ++ [.close leaver])) leaver := by
    rw [Machine.run_snoc]
    exact not_present_closed inOrder found
  have lasts := @Machine.lasting _ _ _ (machine engine) (fun history server =>
      InOrder server ((machine engine).transcript history) ∧ ¬ Present server leaver ∧
        parted member leaver ((machine engine).transcript history) = 1)
    (Orderly engine) (past ++ [.close leaver]) future orderly
    ⟨(inOrder_run upTo).1, gone, told⟩
  apply (lasts _).2.2
  intro history event holds allowed
  rcases holds with ⟨inOrder, gone, told⟩
  have change := step_change engine ((machine engine).run history) event
  rw [Machine.transcript_snoc]
  refine ⟨inOrder.step change allowed, fun present => gone (present_before change present), ?_⟩
  have quiet : departuresOf leaver (framesIn member
      ((machine engine).output ((machine engine).run history) event)) = 0 := by
    apply departures_eq_zero inOrder change
    intro _
    cases found : ((machine engine).run history).sockets.lookup leaver with
    | none => rfl
    | some ws => exact absurd (.inl (by rw [found]; rfl)) gone
  rw [parted_snoc, told, quiet]

/-- Where each connection joins once, any two that are in one room at one moment are
introduced once, the later joiner to the earlier, and the close of a connection is
told to each other member of its room once. -/
theorem mesh_complete (engine : ScriptEngine Number) (events : List Event)
    (orderly : (machine engine).EveryStep (Orderly engine) events) :
    (∀ past, past <+: events → ∀ room first second, first ≠ second →
      (∃ id, ((machine engine).run past).entry room id = some first) →
      (∃ id, ((machine engine).run past).entry room id = some second) →
        Introduced first second ((machine engine).transcript past)
            ((machine engine).transcript events) ∨
          Introduced second first ((machine engine).transcript past)
            ((machine engine).transcript events)) ∧
      ∀ past leaver, past ++ [.close leaver] <+: events → ∀ room member, member ≠ leaver →
        (∃ id, ((machine engine).run past).entry room id = some leaver) →
        (∃ id, ((machine engine).run past).entry room id = some member) →
          parted member leaver ((machine engine).transcript events) = 1 := by
  constructor
  · intro past isPrefix room first second different firstInside secondInside
    exact introduced_lasts orderly isPrefix different firstInside secondInside
  · intro past leaver isPrefix room member different leaverInside memberInside
    exact parted_lasts orderly isPrefix different leaverInside memberInside

end Run

/-- Two connections that join room `A`, the second of which leaves. -/
theorem mesh_complete_pair :
    (Introduced 1 2
        ((machine letterEngine).transcript
          [.connection, .connection, .message 1 [0x41], .message 2 [0x41]])
        ((machine letterEngine).transcript
          [.connection, .connection, .message 1 [0x41], .message 2 [0x41], .close 2]) ∨
      Introduced 2 1
        ((machine letterEngine).transcript
          [.connection, .connection, .message 1 [0x41], .message 2 [0x41]])
        ((machine letterEngine).transcript
          [.connection, .connection, .message 1 [0x41], .message 2 [0x41], .close 2])) ∧
      parted 1 2 ((machine letterEngine).transcript
        [.connection, .connection, .message 1 [0x41], .message 2 [0x41], .close 2]) = 1 := by
  have firstInside : ((machine letterEngine).run
      [.connection, .connection, .message 1 [0x41], .message 2 [0x41]]).entry "A" "1" = some 1 := by
    decide +kernel
  have secondInside : ((machine letterEngine).run
      [.connection, .connection, .message 1 [0x41], .message 2 [0x41]]).entry "A" "2" = some 2 := by
    decide +kernel
  have firstOutside : ((machine letterEngine).run [.connection, .connection]).sockets.lookup 1 =
      some { id := "1" } := by
    decide +kernel
  have secondOutside : ((machine letterEngine).run
      [.connection, .connection, .message 1 [0x41]]).sockets.lookup 2 = some { id := "2" } := by
    decide +kernel
  have orderly : (machine letterEngine).EveryStep (Orderly letterEngine)
      ([] ++ [Event.connection] ++ [Event.connection] ++ [Event.message 1 [0x41]] ++
        [Event.message 2 [0x41]] ++ [Event.close 2]) := by
    iterate 5 rw [Machine.everyStep_snoc]
    refine ⟨⟨⟨⟨⟨Machine.everyStep_nil, trivial⟩, trivial⟩, ?_⟩, ?_⟩, trivial⟩
    · intro ws room found named
      cases firstOutside.symm.trans found
      rfl
    · intro ws room found named
      cases secondOutside.symm.trans found
      rfl
  have meshed := mesh_complete letterEngine _ orderly
  constructor
  · exact meshed.1 _ (List.prefix_append _ [Event.close 2]) "A" 1 2 (by decide) ⟨"1", firstInside⟩
      ⟨"2", secondInside⟩
  · exact meshed.2 _ 2 (List.prefix_refl _) "A" 1 (by decide) ⟨"2", secondInside⟩
      ⟨"1", firstInside⟩

end WebServer

end Vela
