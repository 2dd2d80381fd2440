import Mathlib
import Vela.Common.Types
import Vela.Web.Server

/-! # Who is in which room

Membership is kept twice: in the room of a connection and in the map of rooms. A
first join keeps the two together. A later one moves the connection's room and
leaves its entry behind, so the results say exactly which runs keep the rooms
exact. -/

namespace Vela

open Foundation

namespace WebServer

variable {Number : Type}

/-! ## The rooms that connections named -/

/-- The room that a message names, if it is a join. -/
def namedRoom (engine : ScriptEngine Number) (raw : Bytes) : Option String := do
  let msg ← engine.parse raw
  let type ← (msg.property "type").toOption
  if typeOf type = some "join" then
    let named ← (msg.property "room").toOption
    (Json.toText engine (some (Json.orElse engine "demo" named))).toOption
  else none

def Effect.joinedRoom : Effect Number → Option String
  | .logJoined room _ _ => some room
  | _ => none

/-- The room that one step put a connection in. -/
def joinedBy (connection : ConnectionNumber) : Event × List (Effect Number) → Option String
  | (.message sender _, effects) =>
      if sender = connection then effects.findSome? Effect.joinedRoom else none
  | _ => none

/-- The room that the most recent join of a connection named. -/
def latestRoom (connection : ConnectionNumber)
    (transcript : List (Event × List (Effect Number))) : Option String :=
  transcript.foldl (fun room entry => (joinedBy connection entry).or room) none

theorem latestRoom_snoc (connection : ConnectionNumber)
    (transcript : List (Event × List (Effect Number))) (entry : Event × List (Effect Number)) :
    latestRoom connection (transcript ++ [entry]) =
      (joinedBy connection entry).or (latestRoom connection transcript) := by
  simp [latestRoom]

/-! ## What one step does -/

inductive Change (engine : ScriptEngine Number) (server : WebServer) :
    Event → WebServer → List (Effect Number) → Prop where
  | connected (running : server.isRunning = true) :
      Change engine server .connection server.onConnection []
  | joined {connection : ConnectionNumber} {raw : Bytes} {ws : Socket} {room : String}
      (found : server.sockets.lookup connection = some ws)
      (named : namedRoom engine raw = some room) :
      Change engine server (.message connection raw)
        (server.join connection ws room : _ × List (Effect Number)).1
        (server.join connection ws room).2
  | relayed {connection target : ConnectionNumber} {raw : Bytes} {ws : Socket} {id : String}
      {peers : InsertionMap String ConnectionNumber} {data : Option (Json Number)}
      (found : server.sockets.lookup connection = some ws) (unnamed : namedRoom engine raw = none)
      (inside : server.peersOf ws = some peers) (listed : peers.lookup id = some target) :
      Change engine server (.message connection raw) server [.send target (.signal ws.id data)]
  | threw {connection : ConnectionNumber} {raw : Bytes} {error : ScriptError}
      (unnamed : namedRoom engine raw = none) :
      Change engine server (.message connection raw) server.terminated [.threw error]
  | closing {connection : ConnectionNumber} {ws : Socket}
      (found : server.sockets.lookup connection = some ws) :
      Change engine server (.closing connection)
        { server with sockets := server.sockets.insert connection { ws with isOpen := false } } []
  | closed {connection : ConnectionNumber} {ws : Socket}
      (found : server.sockets.lookup connection = some ws) :
      Change engine server (.close connection)
        (server.onClose connection ws : _ × List (Effect Number)).1
        (server.onClose connection ws).2
  | ignored {event : Event}
      (unnamed : ∀ connection raw, event = .message connection raw →
        server.sockets.lookup connection = none ∨ namedRoom engine raw = none) :
      Change engine server event server []

/-- A frame is sent to a socket that is open, or it is not sent at all. -/
theorem send_cases (server : WebServer) (target : ConnectionNumber) (frame : Frame Number) :
    server.send target frame = [.send target frame] ∧
        (∃ ws, server.sockets.lookup target = some ws ∧ ws.isOpen = true) ∨
      server.send target frame = [] ∧
        ∀ ws, server.sockets.lookup target = some ws → ws.isOpen = false := by
  rw [send]
  cases server.sockets.lookup target with
  | none => exact .inr ⟨rfl, by simp⟩
  | some ws =>
      cases opened : ws.isOpen with
      | true => exact .inl ⟨by simp [opened], ws, rfl, opened⟩
      | false => exact .inr ⟨by simp [opened], by simp [opened]⟩

/-- What a send puts out is its frame, on a socket that is open. -/
theorem mem_send {server : WebServer} {target : ConnectionNumber} {frame : Frame Number}
    {effect : Effect Number} (member : effect ∈ server.send target frame) :
    effect = .send target frame ∧
      ∃ ws, server.sockets.lookup target = some ws ∧ ws.isOpen = true := by
  rcases send_cases server target frame with ⟨sent, opened⟩ | ⟨dropped, _⟩
  · rw [sent] at member
    exact ⟨List.mem_singleton.mp member, opened⟩
  · rw [dropped] at member
    cases member

/-- What the outcome of a handler changes; an error ends the process. -/
def Handled (engine : ScriptEngine Number) (server : WebServer) (event : Event) :
    Except ScriptError (WebServer × List (Effect Number)) → Prop
  | .ok result => Change engine server event result.1 result.2
  | .error error => Change engine server event server.terminated [.threw error]

section Message

variable {engine : ScriptEngine Number} {server : WebServer} {connection target : ConnectionNumber}
  {ws : Socket} {raw : Bytes} {msg : Json Number}

/-- A step of a handler that throws only on messages that join no room. -/
theorem Handled.bind {Value : Type} {first : Except ScriptError Value}
    {next : Value → Except ScriptError (WebServer × List (Effect Number))}
    (unnamed : ∀ error, first = .error error → namedRoom engine raw = none)
    (each : ∀ value, first = .ok value →
      Handled engine server (.message connection raw) (next value)) :
    Handled engine server (.message connection raw) (first >>= next) := by
  cases first with
  | error error => exact .threw (unnamed error rfl)
  | ok value => exact each value rfl

theorem ignored_message (unnamed : namedRoom engine raw = none) :
    Change engine server (.message connection raw) server [] := by
  apply Change.ignored
  intro other text same
  cases same
  exact .inr unnamed

theorem relay_handled (found : server.sockets.lookup connection = some ws)
    (unnamed : namedRoom engine raw = none) {peers : InsertionMap String ConnectionNumber}
    {id : String} (inside : server.peersOf ws = some peers) (listed : peers.lookup id = some target)
    (data : Option (Json Number)) :
    Handled engine server (.message connection raw) (server.relay engine ws target data) := by
  rw [relay]
  rcases send_cases server target (.signal ws.id data) with ⟨sent, _⟩ | ⟨dropped, _⟩
  · rw [sent]
    dsimp only
    cases data.any engine.stringifyOverflows with
    | true => exact .threw unnamed
    | false => exact .relayed found unnamed inside listed
  · rw [dropped]
    exact ignored_message unnamed

theorem onParsed_handled (found : server.sockets.lookup connection = some ws)
    (parsed : engine.parse raw = some msg) :
    Handled engine server (.message connection raw)
      (server.onParsed engine connection ws msg) := by
  rw [onParsed]
  apply Handled.bind
  · intro error typed
    simp [namedRoom, parsed, typed, Except.toOption]
  intro type typed
  by_cases isJoin : typeOf type = some "join"
  · rw [if_pos isJoin]
    apply Handled.bind
    · intro error read
      simp [namedRoom, parsed, typed, read, Except.toOption]
    intro named read
    apply Handled.bind
    · intro error converted
      simp [namedRoom, parsed, typed, read, converted, Except.toOption]
    intro room converted
    apply Change.joined found
    simp [namedRoom, parsed, typed, isJoin, read, converted, Except.toOption]
  · have unnamed : namedRoom engine raw = none := by
      simp [namedRoom, parsed, typed, isJoin, Except.toOption]
    rw [if_neg isJoin]
    by_cases isSignal : typeOf type = some "signal"
    · rw [if_pos isSignal]
      cases inside : server.peersOf ws with
      | none => exact ignored_message unnamed
      | some peers =>
          apply Handled.bind (fun _ _ => unnamed)
          intro addressed _
          apply Handled.bind (fun _ _ => unnamed)
          intro id _
          cases listed : peers.lookup id with
          | none => exact ignored_message unnamed
          | some target =>
              apply Handled.bind (fun _ _ => unnamed)
              intro data _
              exact relay_handled found unnamed inside listed data
    · rw [if_neg isSignal]
      exact ignored_message unnamed

theorem onMessage_handled (found : server.sockets.lookup connection = some ws) (raw : Bytes) :
    Handled engine server (.message connection raw)
      (server.onMessage engine connection ws raw) := by
  rw [onMessage]
  cases parsed : engine.parse raw with
  | none => exact ignored_message (by simp [namedRoom, parsed])
  | some msg => exact onParsed_handled found parsed

end Message

theorem step_change (engine : ScriptEngine Number) (server : WebServer) (event : Event) :
    Change engine server event (step engine server event).1 (step engine server event).2 := by
  have unchanged : ∀ connection, server.sockets.lookup connection = none → ∀ event,
      (∀ other raw, event = .message other raw → other = connection) →
        Change engine server event server [] := by
    intro connection absent event about
    apply Change.ignored
    intro other raw same
    rw [about other raw same]
    exact .inl absent
  cases event with
  | connection =>
      rw [step]
      split
      · rename_i running
        exact .connected running
      · apply Change.ignored
        intro connection raw same
        cases same
  | message connection raw =>
      rw [step]
      cases found : server.sockets.lookup connection with
      | none =>
          apply unchanged connection found
          intro other text same
          cases same
          rfl
      | some ws =>
          have changed := @onMessage_handled _ engine _ _ _ found raw
          dsimp only
          split
          · rename_i result returned
            rw [returned] at changed
            exact changed
          · rename_i error thrown
            rw [thrown] at changed
            exact changed
  | closing connection =>
      rw [step]
      cases found : server.sockets.lookup connection with
      | none =>
          apply unchanged connection found
          intro other text same
          cases same
      | some ws => exact .closing found
  | close connection =>
      rw [step]
      cases found : server.sockets.lookup connection with
      | none =>
          apply unchanged connection found
          intro other text same
          cases same
      | some ws => exact .closed found

/-! ## The entries of the rooms -/

/-- The connection that a room's map has under an id. -/
def entry (server : WebServer) (room id : String) : Option ConnectionNumber :=
  (server.rooms.lookup room).bind fun peers => peers.lookup id

theorem entry_join (server : WebServer) (connection : ConnectionNumber) (ws : Socket)
    (room other id : String) :
    (server.join connection ws room : _ × List (Effect Number)).1.entry other id =
      if other = room ∧ id = ws.id then some connection else server.entry other id := by
  simp only [entry, join, InsertionMap.lookup_set]
  by_cases sameRoom : other = room
  · rw [if_pos sameRoom, Option.bind_some, InsertionMap.lookup_set, sameRoom]
    by_cases sameId : id = ws.id
    · simp [sameId]
    · simp only [sameId, and_false, if_false]
      cases server.rooms.lookup room with
      | none => exact AList.lookup_empty id
      | some peers => rfl
  · simp [sameRoom]

theorem entry_onClose (server : WebServer) (connection : ConnectionNumber) (ws : Socket)
    (other id : String) :
    (server.onClose connection ws : _ × List (Effect Number)).1.entry other id =
      if ws.room = some other ∧ id = ws.id then none else server.entry other id := by
  rw [onClose]
  cases home : ws.room with
  | none => simp [entry]
  | some room =>
      dsimp only
      cases found : server.rooms.lookup room with
      | none =>
          by_cases sameRoom : room = other
          · rw [sameRoom] at found
            simp [entry, found]
          · simp [entry, sameRoom]
      | some peers =>
          simp only [entry, Option.some.injEq]
          by_cases sameRoom : room = other
          · rw [← sameRoom, found, Option.bind_some]
            split
            · rename_i deserted
              have left := UnorderedMap.size_eq_zero.mp deserted id
              rw [UnorderedMap.lookup_erase_eq] at left
              rw [UnorderedMap.lookup_erase_eq, if_pos rfl, Option.bind_none]
              simpa using left.symm
            · rw [InsertionMap.lookup_set, if_pos rfl, Option.bind_some,
                UnorderedMap.lookup_erase_eq]
              simp
          · have elsewhere : other ≠ room := fun same => sameRoom same.symm
            simp only [sameRoom, false_and, if_false]
            split
            · rw [UnorderedMap.lookup_erase_eq, if_neg elsewhere]
            · rw [InsertionMap.lookup_set, if_neg elsewhere]

theorem sockets_onClose (server : WebServer) (connection : ConnectionNumber) (ws : Socket) :
    (server.onClose connection ws : _ × List (Effect Number)).1.sockets =
      server.sockets.erase connection := by
  rw [onClose]
  split
  · rfl
  · split <;> rfl

theorem nextId_onClose (server : WebServer) (connection : ConnectionNumber) (ws : Socket) :
    (server.onClose connection ws : _ × List (Effect Number)).1.nextId = server.nextId := by
  rw [onClose]
  split
  · rfl
  · split <;> rfl

/-! ## Connections and their ids -/

/-- What holds of every run: ids are the numbers of connections, and the room of an
open connection is the one it named last. -/
structure Tracked (server : WebServer) (transcript : List (Event × List (Effect Number))) :
    Prop where
  keyed : ∀ room id connection, server.entry room id = some connection →
    id = toString connection ∧ connection < server.nextId
  identified : ∀ connection ws, server.sockets.lookup connection = some ws →
    ws.id = toString connection ∧ connection < server.nextId ∧
      ws.room = latestRoom connection transcript
  unborn : ∀ connection, server.nextId ≤ connection → latestRoom connection transcript = none

/-- The effects of a join put the one who joins into the room, and nobody else
anywhere. -/
theorem joinedBy_join (server : WebServer) (connection : ConnectionNumber) (ws : Socket)
    (room : String) (raw : Bytes) (other : ConnectionNumber) :
    joinedBy other
        (.message connection raw, (server.join connection ws room : _ × List (Effect Number)).2) =
      if connection = other then some room else none := by
  have silent : ∀ target (frame : Frame Number),
      (server.send target frame).findSome? Effect.joinedRoom = none := by
    intro target frame
    rcases send_cases server target frame with ⟨sent, _⟩ | ⟨dropped, _⟩
    · rw [sent]
      rfl
    · rw [dropped]
      rfl
  have quiet : ∀ (peers : List (String × ConnectionNumber)) (frame : Frame Number),
      (peers.flatMap fun peer => server.send peer.2 frame).findSome? Effect.joinedRoom = none := by
    intro peers frame
    apply List.findSome?_eq_none_iff.mpr
    intro effect member
    rcases List.mem_flatMap.mp member with ⟨peer, _, inside⟩
    exact List.findSome?_eq_none_iff.mp (silent peer.2 frame) effect inside
  rw [joinedBy, join]
  split
  · simp only [List.findSome?_append, silent, quiet, Option.none_or]
    rfl
  · rfl

/-- A step in which nobody joins. -/
theorem Tracked.quiet {server : WebServer} {transcript : List (Event × List (Effect Number))}
    {entry : Event × List (Effect Number)} (tracked : Tracked server transcript)
    (silent : ∀ connection, joinedBy connection entry = none) :
    Tracked server (transcript ++ [entry]) := by
  refine ⟨tracked.keyed, ?_, ?_⟩
  · intro connection ws present
    rw [latestRoom_snoc, silent, Option.none_or]
    exact tracked.identified connection ws present
  · intro connection later
    rw [latestRoom_snoc, silent, Option.none_or]
    exact tracked.unborn connection later

theorem Tracked.joined {server : WebServer} {transcript : List (Event × List (Effect Number))}
    (tracked : Tracked server transcript) {sender : ConnectionNumber} {ws : Socket}
    (found : server.sockets.lookup sender = some ws) (room : String) (raw : Bytes) :
    Tracked (server.join sender ws room : _ × List (Effect Number)).1
      (transcript ++ [(.message sender raw, (server.join sender ws room).2)]) := by
  have sound := tracked.identified sender ws found
  refine ⟨?_, ?_, ?_⟩
  · intro other id connection held
    rw [entry_join] at held
    split at held
    · rename_i same
      cases held
      rw [same.2]
      exact ⟨sound.1, sound.2.1⟩
    · exact tracked.keyed other id connection held
  · intro connection other present
    rw [latestRoom_snoc, joinedBy_join]
    simp only [join, UnorderedMap.lookup_insert_eq] at present ⊢
    split at present
    · rename_i same
      cases present
      rw [same]
      exact ⟨sound.1, sound.2.1, by simp⟩
    · rename_i different
      rw [if_neg fun same => different same.symm, Option.none_or]
      exact tracked.identified connection other present
  · intro connection later
    rw [latestRoom_snoc, joinedBy_join]
    have different : sender ≠ connection := by
      intro same
      have below := sound.2.1
      rw [same] at below
      exact absurd later (Nat.not_le_of_lt below)
    rw [if_neg different, Option.none_or]
    exact tracked.unborn connection later

theorem Tracked.closed {server : WebServer} {transcript : List (Event × List (Effect Number))}
    (tracked : Tracked server transcript) (target : ConnectionNumber) (ws : Socket) :
    Tracked (server.onClose target ws : _ × List (Effect Number)).1
      (transcript ++ [(.close target, (server.onClose target ws).2)]) := by
  have quiet := tracked.quiet (fun connection => rfl : ∀ connection, joinedBy connection
    (.close target, (server.onClose target ws : _ × List (Effect Number)).2) = none)
  refine ⟨?_, ?_, ?_⟩
  · intro room id connection held
    rw [entry_onClose] at held
    split at held
    · cases held
    · rw [nextId_onClose]
      exact quiet.keyed room id connection held
  · intro connection other present
    rw [sockets_onClose, UnorderedMap.lookup_erase_eq] at present
    rw [nextId_onClose]
    split at present
    · cases present
    · exact quiet.identified connection other present
  · rw [nextId_onClose]
    exact quiet.unborn

theorem Tracked.step {engine : ScriptEngine Number} {server next : WebServer} {event : Event}
    {effects : List (Effect Number)} {transcript : List (Event × List (Effect Number))}
    (tracked : Tracked server transcript) (change : Change engine server event next effects) :
    Tracked next (transcript ++ [(event, effects)]) := by
  cases change with
  | connected running =>
      have quiet := tracked.quiet (fun connection => rfl :
        ∀ connection, joinedBy connection (.connection, ([] : List (Effect Number))) = none)
      refine ⟨?_, ?_, ?_⟩
      · intro room id connection held
        have before := quiet.keyed room id connection held
        exact ⟨before.1, Nat.lt_succ_of_lt before.2⟩
      · intro connection ws found
        simp only [onConnection, UnorderedMap.lookup_insert_eq] at found ⊢
        split at found
        · rename_i newest
          cases found
          rw [newest, quiet.unborn _ (Nat.le_refl _)]
          exact ⟨rfl, Nat.lt_succ_self _, rfl⟩
        · have before := quiet.identified connection ws found
          exact ⟨before.1, Nat.lt_succ_of_lt before.2.1, before.2.2⟩
      · intro connection later
        exact quiet.unborn connection (Nat.le_of_succ_le later)
  | joined found named => exact tracked.joined found _ _
  | relayed found unnamed inside listed =>
      exact tracked.quiet fun connection => by simp [joinedBy, Effect.joinedRoom]
  | @threw sender raw error unnamed =>
      have silent : ∀ connection, joinedBy connection
          (.message sender raw, [(.threw error : Effect Number)]) = none := by
        intro connection
        simp [joinedBy, Effect.joinedRoom]
      refine ⟨?_, ?_, (tracked.quiet silent).unborn⟩
      · intro room id connection held
        simp [entry, terminated] at held
      · intro connection ws present
        simp [terminated] at present
  | @closing target ws found =>
      have quiet := tracked.quiet (fun connection => rfl :
        ∀ connection, joinedBy connection (.closing target, ([] : List (Effect Number))) = none)
      refine ⟨quiet.keyed, ?_, quiet.unborn⟩
      intro connection other present
      simp only [UnorderedMap.lookup_insert_eq] at present
      split at present
      · rename_i same
        cases present
        rw [same]
        exact quiet.identified target ws found
      · exact quiet.identified connection other present
  | closed found => exact tracked.closed _ _
  | ignored unnamed =>
      exact tracked.quiet fun connection => by cases event <;> simp [joinedBy]

/-! ## Exact rooms -/

/-- Each room's map holds exactly the open connections whose most recent join named
that room. -/
def RoomsExact (server : WebServer) (transcript : List (Event × List (Effect Number))) : Prop :=
  ∀ room connection, (∃ id, server.entry room id = some connection) ↔
    (server.sockets.lookup connection).isSome ∧ latestRoom connection transcript = some room

/-- What one step may send: no reply lists the connection it goes to, and a signal
reaches only the sender's room. -/
structure StepLawful (before : List (Event × List (Effect Number)))
    (step : Event × List (Effect Number)) : Prop where
  unlisted : ∀ target id peers, .send target (.joined id peers) ∈ step.2 → id ∉ peers
  inside : ∀ sender raw target source data, step.1 = .message sender raw →
    .send target (.signal source data) ∈ step.2 →
      ∃ room, latestRoom sender before = some room ∧ latestRoom target before = some room

def Lawful (transcript : List (Event × List (Effect Number))) : Prop :=
  ∀ before step after, transcript = before ++ step :: after → StepLawful before step

theorem lawful_nil : Lawful ([] : List (Event × List (Effect Number))) := by
  intro before step after split
  cases before <;> cases split

theorem lawful_snoc {transcript : List (Event × List (Effect Number))}
    {step : Event × List (Effect Number)} :
    Lawful (transcript ++ [step]) ↔ Lawful transcript ∧ StepLawful transcript step := by
  constructor
  · intro lawful
    constructor
    · intro before earlier after split
      apply lawful before earlier (after ++ [step])
      rw [split]
      simp
    · exact lawful transcript step [] rfl
  · intro both before earlier after split
    rcases List.eq_nil_or_concat after with empty | ⟨rest, last, whole⟩
    · rw [empty] at split
      rcases List.append_inj' split rfl with ⟨samePast, sameStep⟩
      cases sameStep
      rw [← samePast]
      exact both.2
    · rw [whole, List.concat_eq_append, ← List.cons_append, ← List.append_assoc] at split
      exact both.1 before earlier rest (List.append_inj' split rfl).1

/-- No connection that is in a room joins again, but for one that is closing and
names the room it is in. -/
def StaysPut (engine : ScriptEngine Number) (server : WebServer) : Event → Prop
  | .message connection raw => ∀ ws old room, server.sockets.lookup connection = some ws →
      ws.room = some old → namedRoom engine raw = some room → room = old ∧ ws.isOpen = false
  | _ => True

/-- Rooms and open connections both unchanged by a step in which nobody joins. -/
theorem RoomsExact.quiet {server next : WebServer}
    {transcript : List (Event × List (Effect Number))} {step : Event × List (Effect Number)}
    (settled : RoomsExact server transcript)
    (entries : ∀ room id, next.entry room id = server.entry room id)
    (opened : ∀ connection, (next.sockets.lookup connection).isSome =
      (server.sockets.lookup connection).isSome)
    (silent : ∀ connection, joinedBy connection step = none) :
    RoomsExact next (transcript ++ [step]) := by
  intro room connection
  simp only [entries, opened, latestRoom_snoc, silent, Option.none_or]
  exact settled room connection

/-- A step without a `joined` reply or a signal. -/
theorem stepLawful_of_silent {before : List (Event × List (Effect Number))}
    {step : Event × List (Effect Number)}
    (noReply : ∀ target id peers, .send target (.joined id peers) ∉ step.2)
    (noSignal : ∀ target source data, .send target (.signal source data) ∉ step.2) :
    StepLawful before step :=
  ⟨fun target id peers sent => absurd sent (noReply target id peers),
    fun _ _ target source data _ sent => absurd sent (noSignal target source data)⟩

/-- The frames a handler sends to each of several peers are the one it was given. -/
theorem mem_notices {server : WebServer} {peers : List (String × ConnectionNumber)}
    {frame : Frame Number} {effect : Effect Number}
    (member : effect ∈ peers.flatMap fun peer => server.send peer.2 frame) :
    ∃ peer ∈ peers, effect = .send peer.2 frame := by
  rcases List.mem_flatMap.mp member with ⟨peer, inside, sends⟩
  exact ⟨peer, inside, (mem_send sends).1⟩

theorem mem_join {server : WebServer} {connection : ConnectionNumber} {ws : Socket} {room : String}
    {effect : Effect Number} :
    effect ∈ (server.join connection ws room).2 ↔
      effect ∈ server.send connection
          (.joined ws.id (((server.rooms.lookup room).getD ∅).keys) : Frame Number) ∨
      (effect ∈ (UnorderedMap.pairs ((server.rooms.lookup room).getD ∅)).flatMap fun peer =>
          server.send peer.2 (.peerJoined ws.id : Frame Number)) ∨
      effect = .logJoined room ws.id
        (UnorderedMap.size (((server.rooms.lookup room).getD ∅).set ws.id connection)) := by
  simp only [join, List.mem_append, List.mem_singleton, or_assoc]

/-- The peers that a join lists are the entries of the room. -/
theorem mem_listed {server : WebServer} {room id : String} :
    id ∈ ((server.rooms.lookup room).getD ∅).keys ↔
      ∃ connection, server.entry room id = some connection := by
  rw [← AList.mem_keys, UnorderedMap.mem_iff_exists_lookup, entry]
  cases server.rooms.lookup room with
  | none => simp
  | some peers => rfl

theorem join_lawful_iff {server : WebServer} {transcript : List (Event × List (Effect Number))}
    {sender : ConnectionNumber} {ws : Socket} {room : String} {raw : Bytes}
    (found : server.sockets.lookup sender = some ws) :
    StepLawful transcript
        (.message sender raw, (server.join sender ws room : _ × List (Effect Number)).2) ↔
      (ws.isOpen = true → server.entry room ws.id = none) := by
  constructor
  · intro lawful opened
    have sent : .send sender (.joined ws.id ((server.rooms.lookup room).getD ∅).keys) ∈
        (server.join sender ws room : _ × List (Effect Number)).2 := by
      apply mem_join.mpr
      left
      simp [send, found, opened]
    have unlisted := lawful.unlisted _ _ _ sent
    rw [mem_listed] at unlisted
    exact Option.eq_none_iff_forall_ne_some.mpr fun connection held => unlisted ⟨connection, held⟩
  · intro fresh
    constructor
    · intro target id peers sent
      rcases mem_join.mp sent with reply | notice | log
      · rcases mem_send reply with ⟨same, other, present, opened⟩
        cases same
        rw [found] at present
        cases present
        rw [mem_listed, fresh opened]
        simp
      · rcases mem_notices notice with ⟨peer, _, same⟩
        cases same
      · cases log
    · intro _ _ target source data _ sent
      rcases mem_join.mp sent with reply | notice | log
      · cases (mem_send reply).1
      · rcases mem_notices notice with ⟨peer, _, same⟩
        cases same
      · cases log

/-- A join opens and closes no socket. -/
theorem isSome_lookup_join {server : WebServer} {sender connection : ConnectionNumber} {ws : Socket}
    {room : String} (found : server.sockets.lookup sender = some ws) :
    ((server.join sender ws room : _ × List (Effect Number)).1.sockets.lookup connection).isSome =
      (server.sockets.lookup connection).isSome := by
  simp only [join, UnorderedMap.lookup_insert_eq]
  split
  · rename_i newcomer
    rw [newcomer, found]
    rfl
  · rfl

section JoinExact

variable {server : WebServer} {transcript : List (Event × List (Effect Number))}
  {sender : ConnectionNumber} {ws : Socket} {room : String} {raw : Bytes}

/-- A join to another room leaves the entry in the old one behind. -/
theorem same_room_of_exact (tracked : Tracked server transcript)
    (settled : RoomsExact server transcript) (found : server.sockets.lookup sender = some ws)
    (after : RoomsExact (server.join sender ws room : _ × List (Effect Number)).1
      (transcript ++ [(.message sender raw, (server.join sender ws room).2)]))
    {old : String} (moved : ws.room = some old) : room = old := by
  have sound := tracked.identified sender ws found
  have stays : ∃ id, server.entry old id = some sender := by
    apply (settled old sender).mpr
    rw [found, ← sound.2.2]
    exact ⟨rfl, moved⟩
  rcases stays with ⟨id, held⟩
  have listed : ∃ id, (server.join sender ws room : _ × List (Effect Number)).1.entry old id =
      some sender := by
    refine ⟨id, ?_⟩
    rw [entry_join]
    split
    · rfl
    · exact held
  have latest := ((after old sender).mp listed).2
  rw [latestRoom_snoc, joinedBy_join, if_pos rfl] at latest
  exact Option.some.inj latest

theorem exact_of_same_room (tracked : Tracked server transcript)
    (settled : RoomsExact server transcript) (found : server.sockets.lookup sender = some ws)
    (same : ∀ old, ws.room = some old → room = old) :
    RoomsExact (server.join sender ws room : _ × List (Effect Number)).1
      (transcript ++ [(.message sender raw, (server.join sender ws room).2)]) := by
  have sound := tracked.identified sender ws found
  intro other connection
  rw [isSome_lookup_join found, latestRoom_snoc, joinedBy_join]
  simp only [entry_join]
  by_cases newcomer : sender = connection
  · subst newcomer
    rw [if_pos rfl, Option.some_or, found, Option.some.injEq]
    constructor
    · intro held
      rcases held with ⟨id, held⟩
      refine ⟨rfl, ?_⟩
      split at held
      · rename_i here
        exact here.1.symm
      · have listed := (settled other sender).mp ⟨id, held⟩
        rw [← sound.2.2] at listed
        exact same other listed.2
    · intro here
      exact ⟨ws.id, if_pos ⟨here.2.symm, rfl⟩⟩
  · rw [if_neg newcomer, Option.none_or, ← settled other connection]
    apply exists_congr
    intro id
    split
    · rename_i here
      constructor
      · intro impossible
        exact absurd (Option.some.inj impossible) newcomer
      · intro held
        have named := (tracked.keyed other id connection held).1
        rw [here.2, sound.1] at named
        exact absurd (Nat.repr_injective named) newcomer
    · rfl

theorem join_exact_iff (tracked : Tracked server transcript)
    (settled : RoomsExact server transcript) (found : server.sockets.lookup sender = some ws) :
    RoomsExact (server.join sender ws room : _ × List (Effect Number)).1
        (transcript ++ [(.message sender raw, (server.join sender ws room).2)]) ↔
      ∀ old, ws.room = some old → room = old :=
  ⟨fun after _ moved => same_room_of_exact tracked settled found after moved,
    fun same => exact_of_same_room tracked settled found same⟩

end JoinExact

theorem mem_onClose {server : WebServer} {connection : ConnectionNumber} {ws : Socket}
    {effect : Effect Number} (member : effect ∈ (server.onClose connection ws).2) :
    (∃ target, effect = .send target (.peerLeft ws.id)) ∨
      ∃ room, effect = .logLeft room ws.id := by
  rw [onClose] at member
  split at member
  · cases member
  · rename_i room _
    split at member
    · cases member
    · rcases List.mem_append.mp member with notice | log
      · rcases mem_notices notice with ⟨peer, _, same⟩
        exact .inl ⟨peer.2, same⟩
      · exact .inr ⟨room, List.mem_singleton.mp log⟩

theorem connection_exact {server : WebServer} {transcript : List (Event × List (Effect Number))}
    (tracked : Tracked server transcript) (settled : RoomsExact server transcript) :
    RoomsExact server.onConnection (transcript ++ [(.connection, [])]) := by
  intro room connection
  rw [latestRoom_snoc]
  change (∃ id, server.entry room id = some connection) ↔
    ((server.sockets.insert server.nextId _).lookup connection).isSome ∧
      latestRoom connection transcript = some room
  rw [UnorderedMap.lookup_insert_eq]
  split
  · rename_i newest
    rw [newest, tracked.unborn _ (Nat.le_refl _)]
    constructor
    · intro held
      rcases held with ⟨id, held⟩
      exact absurd (tracked.keyed room id _ held).2 (Nat.lt_irrefl _)
    · intro impossible
      cases impossible.2
  · exact settled room connection

theorem close_exact {server : WebServer} {transcript : List (Event × List (Effect Number))}
    {target : ConnectionNumber} {ws : Socket} (tracked : Tracked server transcript)
    (settled : RoomsExact server transcript) (found : server.sockets.lookup target = some ws) :
    RoomsExact (server.onClose target ws : _ × List (Effect Number)).1
      (transcript ++ [(.close target, (server.onClose target ws).2)]) := by
  have sound := tracked.identified target ws found
  intro room connection
  rw [latestRoom_snoc, sockets_onClose, UnorderedMap.lookup_erase_eq]
  change _ ↔ _ ∧ latestRoom connection transcript = some room
  simp only [entry_onClose]
  by_cases same : connection = target
  · rw [if_pos same, same]
    constructor
    · intro held
      rcases held with ⟨id, held⟩
      split at held
      · cases held
      · rename_i elsewhere
        have home := ((settled room target).mp ⟨id, held⟩).2
        rw [← sound.2.2] at home
        have named := (tracked.keyed room id target held).1
        rw [← sound.1] at named
        exact absurd ⟨home, named⟩ elsewhere
    · intro impossible
      cases impossible.1
  · rw [if_neg same, ← settled room connection]
    apply exists_congr
    intro id
    split
    · rename_i own
      constructor
      · intro impossible
        cases impossible
      · intro held
        have named := (tracked.keyed room id connection held).1
        rw [own.2, sound.1] at named
        exact absurd (Nat.repr_injective named).symm same
    · rfl

/-- A room has no entry of a connection that is not in it. -/
theorem vacant_iff {server : WebServer} {transcript : List (Event × List (Effect Number))}
    {sender : ConnectionNumber} {ws : Socket} {room : String}
    (tracked : Tracked server transcript) (settled : RoomsExact server transcript)
    (found : server.sockets.lookup sender = some ws) :
    server.entry room ws.id = none ↔ ws.room ≠ some room := by
  have sound := tracked.identified sender ws found
  have here : (∃ id, server.entry room id = some sender) ↔ ws.room = some room := by
    rw [settled room sender, found, sound.2.2]
    simp
  rw [ne_eq, ← here]
  constructor
  · intro empty held
    rcases held with ⟨id, held⟩
    have own := (tracked.keyed room id sender held).1
    rw [own, ← sound.1, empty] at held
    cases held
  · intro absent
    apply Option.eq_none_iff_forall_ne_some.mpr
    intro other held
    have own := (tracked.keyed room ws.id other held).1
    rw [sound.1] at own
    rw [← Nat.repr_injective own] at held
    exact absent ⟨ws.id, held⟩

/-- A signal goes to a connection of the sender's room. -/
theorem relay_exact {server : WebServer} {transcript : List (Event × List (Effect Number))}
    {sender target : ConnectionNumber} {ws : Socket} {id : String}
    {peers : InsertionMap String ConnectionNumber} (tracked : Tracked server transcript)
    (settled : RoomsExact server transcript) (found : server.sockets.lookup sender = some ws)
    (inside : server.peersOf ws = some peers) (listed : peers.lookup id = some target) (raw : Bytes)
    (data : Option (Json Number)) :
    RoomsExact server
        (transcript ++ [(.message sender raw, [.send target (.signal ws.id data)])]) ∧
      StepLawful transcript (.message sender raw, [.send target (.signal ws.id data)]) := by
  have sound := tracked.identified sender ws found
  have silent : ∀ connection, joinedBy connection
      (.message sender raw, [.send target (.signal ws.id data)]) = none := by
    intro connection
    simp [joinedBy, Effect.joinedRoom]
  refine ⟨settled.quiet (fun _ _ => rfl) (fun _ => rfl) silent, ?_, ?_⟩
  · intro _ _ _ sent
    cases List.mem_singleton.mp sent
  · intro other text reached source carried same sent
    cases same
    cases List.mem_singleton.mp sent
    rw [peersOf, Option.bind_eq_some_iff] at inside
    rcases inside with ⟨room, home, found⟩
    refine ⟨room, sound.2.2 ▸ home, ?_⟩
    apply ((settled room target).mp ⟨id, _⟩).2
    rw [entry, found]
    exact listed

/-- A message that names no room joins nobody. -/
theorem staysPut_of_unnamed {engine : ScriptEngine Number} {server : WebServer}
    {sender : ConnectionNumber} {raw : Bytes} (unnamed : namedRoom engine raw = none) :
    StaysPut engine server (.message sender raw) := by
  intro _ _ _ _ _ isJoin
  rw [unnamed] at isJoin
  cases isJoin

/-- A join keeps the rooms exact and sends what it may exactly when its sender was in
no room, or is closing in that one. -/
theorem join_step_iff {engine : ScriptEngine Number} {server : WebServer}
    {transcript : List (Event × List (Effect Number))} (tracked : Tracked server transcript)
    (settled : RoomsExact server transcript) {sender : ConnectionNumber} {ws : Socket}
    {raw : Bytes} {room : String} (found : server.sockets.lookup sender = some ws)
    (named : namedRoom engine raw = some room) :
    RoomsExact (server.join sender ws room : _ × List (Effect Number)).1
          (transcript ++ [(.message sender raw, (server.join sender ws room).2)]) ∧
        StepLawful transcript (.message sender raw,
          (server.join sender ws room : _ × List (Effect Number)).2) ↔
      StaysPut engine server (.message sender raw) := by
  rw [join_exact_iff tracked settled found, join_lawful_iff found,
    vacant_iff tracked settled found]
  constructor
  · intro both other old again present inRoom same
    rw [found] at present
    cases present
    rw [named] at same
    cases same
    have moved := both.1 old inRoom
    refine ⟨moved, ?_⟩
    cases opened : ws.isOpen with
    | false => rfl
    | true =>
        rw [moved] at both
        exact absurd inRoom (both.2 opened)
  · intro stays
    constructor
    · intro old inRoom
      exact (stays ws old room found inRoom named).1
    · intro opened inRoom
      have closing := (stays ws room room found inRoom named).2
      rw [opened] at closing
      cases closing

theorem closing_exact {server : WebServer} {transcript : List (Event × List (Effect Number))}
    (settled : RoomsExact server transcript) {target : ConnectionNumber} {ws : Socket}
    (found : server.sockets.lookup target = some ws) :
    RoomsExact
      { server with sockets := server.sockets.insert target { ws with isOpen := false } }
      (transcript ++ [(.closing target, [])]) := by
  refine settled.quiet (fun _ _ => rfl) ?_ fun _ => rfl
  intro connection
  dsimp only
  rw [UnorderedMap.lookup_insert_eq]
  split
  · rename_i same
    rw [same, found]
    rfl
  · rfl

/-- One step keeps the rooms exact and sends what it may exactly when nobody in a
room joins again. -/
theorem exact_step_iff {engine : ScriptEngine Number} {server next : WebServer} {event : Event}
    {effects : List (Effect Number)} {transcript : List (Event × List (Effect Number))}
    (tracked : Tracked server transcript) (settled : RoomsExact server transcript)
    (change : Change engine server event next effects) :
    RoomsExact next (transcript ++ [(event, effects)]) ∧ StepLawful transcript (event, effects) ↔
      StaysPut engine server event := by
  cases change with
  | connected running =>
      apply iff_of_true _ trivial
      exact ⟨connection_exact tracked settled, stepLawful_of_silent (by simp) (by simp)⟩
  | @joined sender raw ws room found named =>
      exact join_step_iff tracked settled found named
  | @relayed sender target raw ws id peers data found unnamed inside listed =>
      apply iff_of_true
      · exact relay_exact tracked settled found inside listed raw data
      · exact staysPut_of_unnamed unnamed
  | @threw sender raw error unnamed =>
      apply iff_of_true
      · constructor
        · intro room connection
          simp [entry, terminated]
        · exact stepLawful_of_silent (by simp) (by simp)
      · exact staysPut_of_unnamed unnamed
  | @closing target ws found =>
      apply iff_of_true _ trivial
      exact ⟨closing_exact settled found, stepLawful_of_silent (by simp) (by simp)⟩
  | @closed target ws found =>
      apply iff_of_true _ trivial
      refine ⟨close_exact tracked settled found, stepLawful_of_silent ?_ ?_⟩
      · intro _ _ _ sent
        rcases mem_onClose sent with ⟨_, same⟩ | ⟨_, same⟩ <;> cases same
      · intro _ _ _ sent
        rcases mem_onClose sent with ⟨_, same⟩ | ⟨_, same⟩ <;> cases same
  | ignored unnamed =>
      apply iff_of_true
      · constructor
        · apply settled.quiet (fun _ _ => rfl) (fun _ => rfl)
          intro connection
          cases event <;> simp [joinedBy]
        · exact stepLawful_of_silent (by simp) (by simp)
      · cases event with
        | message connection raw =>
            intro ws old room found inRoom isJoin
            rcases unnamed connection raw rfl with absent | silent
            · rw [absent] at found
              cases found
            · rw [silent] at isJoin
              cases isJoin
        | _ => trivial

/-! ## Whole runs -/

theorem tracked_run (engine : ScriptEngine Number) (events : List Event) :
    Tracked ((machine engine).run events) ((machine engine).transcript events) := by
  induction events using List.reverseRecOn with
  | nil => exact ⟨by simp [entry, machine, create], by simp [machine, create], fun _ _ => rfl⟩
  | append_singleton past event induction =>
      rw [Machine.run_snoc, Machine.transcript_snoc]
      exact induction.step (step_change engine _ event)

/-- At every moment of a run the rooms are exact, no reply lists the connection that
joins and every signal stays in its room, exactly when no connection that is in a
room joins again; one that is closing may name its room once more. -/
theorem rooms_exact_iff_staysPut (engine : ScriptEngine Number) (events : List Event) :
    (∀ past, past <+: events →
      RoomsExact ((machine engine).run past) ((machine engine).transcript past) ∧
        Lawful ((machine engine).transcript past)) ↔
      ∀ past event, past ++ [event] <+: events →
        StaysPut engine ((machine engine).run past) event := by
  have exactlyWhen : (machine engine).recorded.Always
        (fun view => RoomsExact view.1 view.2 ∧ Lawful view.2) events ↔
      (machine engine).recorded.EveryStep
        (fun view event => StaysPut engine view.1 event) events := by
    apply @Machine.always_iff_everyStep_of_invariant _ _ _ (machine engine).recorded
      fun view => Tracked view.1 view.2
    · intro past
      rw [Machine.run_recorded]
      exact tracked_run engine past
    · exact ⟨by simp [RoomsExact, Machine.recorded, machine, create, entry], lawful_nil⟩
    · intro view event tracked holds
      have oneStep := exact_step_iff tracked holds.1 (step_change engine view.1 event)
      change RoomsExact _ (view.2 ++ [_]) ∧ Lawful (view.2 ++ [_]) ↔ _
      rw [lawful_snoc, ← oneStep]
      constructor
      · intro both
        exact ⟨both.1, both.2.2⟩
      · intro both
        exact ⟨both.1, holds.2, both.2⟩
  simpa only [Machine.Always, Machine.EveryStep, Machine.run_recorded] using exactlyWhen

/-- An engine for joins whose room is the one letter that the text holds. -/
def letterEngine : ScriptEngine Nat where
  parse := fun raw =>
    some (.object [("type", .string "join"),
      ("room", .string (String.ofList (raw.map fun letter => Char.ofNat letter.toNat)))])
  isTruthy := fun number => number ≠ 0
  numberText := toString
  textOverflows := fun _ => false
  stringifyOverflows := fun _ => false

/-- One connection joins room `A` and then room `B`. -/
def secondJoin : List Event := [.connection, .message 1 [0x41], .message 1 [0x42]]

/-- It is still in the first room's map. -/
theorem second_join_stays :
    ¬ RoomsExact ((machine letterEngine).run secondJoin)
      ((machine letterEngine).transcript secondJoin) := by
  intro settled
  have listed : ((machine letterEngine).run secondJoin).entry "A" "1" = some 1 := by
    decide +kernel
  have latest : latestRoom 1 ((machine letterEngine).transcript secondJoin) = some "B" := by
    decide +kernel
  have named := ((settled "A" 1).mp ⟨"1", listed⟩).2
  rw [latest] at named
  exact absurd named (by decide)

end WebServer

end Vela
